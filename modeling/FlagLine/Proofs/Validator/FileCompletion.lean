import FlagLine.Validator.Files
import FlagLine.Proofs.Host.Walk
/-!
# A file rule accepts what it completes

Completion lists the directory that the last value names and offers the entries there;
checking strips each value, cuts several values at the separator, and walks each path from
the working directory. Main statement: `completions_pass_check`. In a tree as a file system
has it, a rule whose separator does not overlap itself and holds no slash accepts every
completion it offers, once the values kept before the last separator are accepted, provided
no name of the tree is cut or changed by the check: no name holds the separator or starts
or ends with a blank, and the suffix of a file is its extension. A directory rule is taken
with one value. The conditions on names are needed: a name with the separator in it is
offered whole and checked in pieces (`spaced_directory_offered_then_refused`).
-/

namespace FlagLine

/-- The text that completion writes for an entry: its name, with a slash after a
directory. -/
def Entry.completion (e : Entry) : String :=
  if e.kind = .directory then e.name ++ "/" else e.name

namespace Entry

variable {e : Entry}

theorem parts_completion (hname : Path.IsName e.name) : Path.parts e.completion = [e.name] := by
  unfold completion
  split
  · exact Path.parts_name_slash hname
  · exact Path.parts_name hname

theorem isAbsolute_completion (hname : Path.IsName e.name) :
    Path.isAbsolute e.completion = false := by
  unfold completion
  split
  · exact Path.isAbsolute_name_slash hname
  · exact Path.isAbsolute_name hname

theorem completion_ne_empty (hname : Path.IsName e.name) : e.completion ≠ "" := by
  unfold completion
  split
  · simp
  · exact hname.1

theorem head?_completion (hname : Path.IsName e.name) :
    e.completion.toList.head? = e.name.toList.head? := by
  obtain ⟨c, r, hc, -⟩ := hname.head_ne
  unfold completion
  split
  · rw [String.toList_append, hc]
    rfl
  · rfl

/-- A directory is written with a slash at the end, a file as its name. -/
theorem getLast?_completion :
    e.completion.toList.getLast? =
      if e.kind = .directory then some '/' else e.name.toList.getLast? := by
  unfold completion
  split
  · simp
  · rfl

/-- A separator without a slash occurs in what completion writes for an entry only where
it occurs in the name. -/
theorem occursIn_completion {sep : List Char} (hsep : sep ≠ []) (hslash : '/' ∉ sep) :
    Text.occursIn sep e.completion.toList = Text.occursIn sep e.name.toList := by
  unfold completion
  split
  · have h : (e.name ++ "/").toList = e.name.toList ++ '/' :: [] := by simp
    rw [h, Text.occursIn_append_cons hsep hslash, Text.occursIn]
    simp [hsep]
  · rfl

end Entry

namespace FileRule

/-- Whether a file rule accepts a finished value, seen from a directory. -/
def accepts (r : FileRule) (h : Host) (cwd value : String) : Bool :=
  match r.check h cwd value with
  | .ok v => v.valid
  | .error _ => false

/-- The directory that a partial path is completed in: the working directory, or the
directory written before the last slash, taken from the working directory when relative. -/
def completionDir (cwd search : String) : String :=
  if !search.toList.contains '/' then cwd
  else if Path.isAbsolute (Path.dirname search) then Path.dirname search
  else Path.join cwd (Path.dirname search)

/-- An offered name written after the directory part of the partial path. -/
def completionPath (search n : String) : String :=
  if search.toList.contains '/' && !(Path.dirname search).isEmpty then
    Path.join (Path.dirname search) n
  else n

/-! ## What completion offers -/

section Offers

variable {r : FileRule}

theorem mem_order {h : Host} {dir c : String} {cs : List String} :
    c ∈ r.order h dir cs ↔ c ∈ cs := by
  unfold order
  split <;> simp [List.mem_mergeSort]

/-- An entry is offered under its name, with a slash after a directory; a file is offered
only with an allowed extension when extensions are given. -/
theorem offer_eq_some {pattern n : String} {e : Entry} (h : r.offer pattern e = some n) :
    n = e.completion ∧
      (r.extensions ≠ [] → e.kind = .file → r.allows (Path.extension e.name) = true) := by
  unfold offer at h
  dsimp only at h
  obtain ⟨hcond, ⟨⟩⟩ := Option.ite_none_right_eq_some.mp h
  simp only [Bool.and_eq_true] at hcond
  obtain ⟨⟨⟨-, -⟩, hext⟩, -⟩ := hcond
  refine ⟨by simp [Entry.completion, Entry.name], fun hne hfile => ?_⟩
  simpa [hfile, hne, Entry.name] using hext

/-- The values are split at the last separator, when there are several: after it there is
no separator. -/
theorem splitValues_spec (hsep : r.multiple = true → r.separator ≠ "") (value : String) :
    ∃ kept search, r.splitValues value = .ok (kept, search) ∧
      (r.multiple = true → Text.occursIn r.separator.toList search.toList = false) ∧
      (kept = "" ∨ ∃ before, r.multiple = true ∧
        Text.splitLast? r.separator.toList value.toList = some (before, search.toList) ∧
        kept = String.ofList before ++ r.separator) := by
  unfold splitValues
  cases hm : r.multiple
  · exact ⟨"", value, rfl, by simp, Or.inl rfl⟩
  have hne := hsep hm
  have hl : r.separator.toList ≠ [] := fun h => hne (String.toList_eq_nil_iff.mp h)
  have hspec := Text.splitLast?_spec hl value.toList
  simp only [Bool.not_true, Bool.false_eq_true, if_false, String.isEmpty_iff, hne]
  revert hspec
  cases Text.splitLast? r.separator.toList value.toList with
  | none =>
    intro hspec
    exact ⟨"", value, rfl, fun _ => hspec, Or.inl rfl⟩
  | some p =>
    obtain ⟨before, after⟩ := p
    rintro ⟨-, hafter⟩
    refine ⟨_, String.ofList after, rfl, fun _ => by simpa using hafter, Or.inr ?_⟩
    exact ⟨before, trivial, by simp, rfl⟩

theorem complete_ok {h : Host} {cwd value kept search : String}
    (hsplit : r.splitValues value = .ok (kept, search)) :
    ∃ cs, r.complete h cwd value = .ok cs := by
  unfold complete
  rw [hsplit]
  cases r.kind <;> exact ⟨_, rfl⟩

/-- Every completion is an offered entry of the listed directory, written after the kept
values and the directory part of the last one; a directory rule offers only what ends in a
slash. -/
theorem mem_complete {h : Host} {cwd value : String} {cs : List String}
    (hcs : r.complete h cwd value = .ok cs) {c : String} (hc : c ∈ cs) :
    ∃ kept search, r.splitValues value = .ok (kept, search) ∧
      ∃ es e pattern n, h.files.list h.cwd (completionDir cwd search) = .ok es ∧ e ∈ es ∧
        r.offer pattern e = some n ∧ c = kept ++ completionPath search n ∧
        (r.kind = .directory → c.endsWith "/" = true) := by
  unfold complete at hcs
  cases hsplit : r.splitValues value with
  | error err => rw [hsplit] at hcs; cases hcs
  | ok p =>
    obtain ⟨kept, search⟩ := p
    rw [hsplit] at hcs
    refine ⟨kept, search, rfl, ?_⟩
    have hfound : ∀ entries : List Entry,
        (∀ e ∈ entries, ∃ es, h.files.list h.cwd (completionDir cwd search) = .ok es ∧ e ∈ es) →
        ∀ c, c ∈ r.order h (completionDir cwd search)
          (((entries.filterMap
            (r.offer (if search.toList.contains '/' then Path.basename search else search))).map
            (fun c => if search.toList.contains '/' && !(Path.dirname search).isEmpty then
              Path.join (Path.dirname search) c else c)).map (kept ++ ·)) →
        ∃ es e pattern n, h.files.list h.cwd (completionDir cwd search) = .ok es ∧ e ∈ es ∧
          r.offer pattern e = some n ∧ c = kept ++ completionPath search n := by
      intro entries hentries c hc
      rw [mem_order] at hc
      simp only [List.map_map, List.mem_map, List.mem_filterMap, Function.comp_apply] at hc
      obtain ⟨n, ⟨e, he, hoffer⟩, rfl⟩ := hc
      obtain ⟨es, hlist, hes⟩ := hentries e he
      exact ⟨es, e, _, n, hlist, hes, hoffer, rfl⟩
    cases hkind : r.kind with
    | file =>
      simp only [hkind, pure, Except.pure] at hcs
      cases hcs
      obtain ⟨es, e, pattern, n, hl, he, ho, hc⟩ := hfound _ (fun e he => by
        split at he
        · exact ⟨_, ‹_›, he⟩
        · cases he) c hc
      exact ⟨es, e, pattern, n, hl, he, ho, hc, nofun⟩
    | directory =>
      simp only [hkind, pure, Except.pure] at hcs
      cases hcs
      rw [List.mem_filter] at hc
      obtain ⟨es, e, pattern, n, hl, he, ho, hc'⟩ := hfound _ (fun e he => by
        split at he
        · exact ⟨_, ‹_›, he⟩
        · cases he) c hc.1
      exact ⟨es, e, pattern, n, hl, he, ho, hc', fun _ => hc.2⟩

end Offers

/-! ## Where an offered name leads -/

section Paths

variable {cwd search : String} {e : Entry}

theorem completionPath_eq {n : String} (hn : Path.isAbsolute n = false) :
    completionPath search n =
      if search.toList.contains '/' then Path.join (Path.dirname search) n else n := by
  unfold completionPath
  cases search.toList.contains '/'
  · rfl
  · cases hw : (Path.dirname search).isEmpty
    · rfl
    · rw [String.isEmpty_iff.mp hw, Path.join_empty_left hn]
      rfl

/-- An offered text has the parts of the directory it was listed in, then its name; it
starts at the root when that directory does. -/
theorem parts_completionPath (cwd search : String) {n name : String}
    (hparts : Path.parts n = [name]) (habs : Path.isAbsolute n = false) :
    Path.parts (Path.join cwd (completionPath search n)) =
        Path.parts (completionDir cwd search) ++ [name] ∧
      Path.isAbsolute (Path.join cwd (completionPath search n)) =
        Path.isAbsolute (completionDir cwd search) := by
  rw [completionPath_eq habs]
  unfold completionDir
  cases search.toList.contains '/'
  · rw [if_neg Bool.false_ne_true, Bool.not_false, if_pos rfl, Path.parts_join, habs,
      if_neg Bool.false_ne_true,
      hparts, Path.isAbsolute_join, habs, Bool.or_false]
    exact ⟨rfl, rfl⟩
  rw [if_pos rfl, Bool.not_true, if_neg Bool.false_ne_true]
  have hjoin : Path.isAbsolute (Path.join (Path.dirname search) n) =
      Path.isAbsolute (Path.dirname search) := by
    rw [Path.isAbsolute_join, habs, Bool.or_false]
  have hparts' : Path.parts (Path.join (Path.dirname search) n) =
      Path.parts (Path.dirname search) ++ [name] := by
    rw [Path.parts_join, habs, if_neg Bool.false_ne_true, hparts]
  cases hw : Path.isAbsolute (Path.dirname search)
  · rw [if_neg Bool.false_ne_true, Path.parts_join cwd (Path.join _ n), hjoin, hw,
      if_neg Bool.false_ne_true, hparts', Path.parts_join cwd (Path.dirname search), hw,
      if_neg Bool.false_ne_true, List.append_assoc, Path.isAbsolute_join cwd,
      Path.isAbsolute_join cwd, hjoin]
    exact ⟨rfl, rfl⟩
  · rw [if_pos rfl, Path.parts_join cwd (Path.join _ n), hjoin, hw, if_pos rfl, hparts',
      Path.isAbsolute_join, hjoin, hw, Bool.or_true]
    exact ⟨rfl, rfl⟩

variable {h : Host} {es : List Entry}

theorem statNormal_completionPath (ht : h.files.WellFormed)
    (hlist : h.files.list h.cwd (completionDir cwd search) = .ok es) (he : e ∈ es) :
    h.files.statNormal h.cwd (Path.join cwd (completionPath search e.completion)) = some e := by
  obtain ⟨-, hname⟩ := FileTree.isName_of_mem_list ht hlist he
  obtain ⟨hparts, habs⟩ := parts_completionPath cwd search (Entry.parts_completion hname)
    (Entry.isAbsolute_completion hname)
  exact FileTree.statNormal_of_mem_list ht hlist he hparts habs

/-- An offered text ends as the name it offers, or with a slash after a directory. -/
theorem getLast?_completionPath (hname : Path.IsName e.name) :
    (completionPath search e.completion).toList.getLast? = e.completion.toList.getLast? := by
  unfold completionPath
  split
  · exact Path.getLast?_join _ (Entry.completion_ne_empty hname)
  · rfl

/-- The directory written in the last value starts with no blank when its listing
succeeds in a tree whose names start with none: its first part is the name of an entry. -/
theorem head_dirname_not_blank
    (hnames : ∀ x ∈ h.files.entries, ∀ c ∈ x.name.toList.head?, Text.isBlank c = false)
    (hlist : h.files.list h.cwd (completionDir cwd search) = .ok es)
    (hs : search.toList.contains '/' = true) :
    ∀ c ∈ (Path.dirname search).toList.head?, Text.isBlank c = false := by
  intro c hc
  obtain ⟨r, hw⟩ : ∃ r, (Path.dirname search).toList = c :: r := by
    cases hd : (Path.dirname search).toList with
    | nil => rw [hd] at hc; cases hc
    | cons d r =>
      rw [hd] at hc
      cases hc
      exact ⟨r, rfl⟩
  by_cases hslash : c = '/'
  · subst hslash
    decide
  by_cases hdot : c = '.'
  · subst hdot
    decide
  have hrel : Path.isAbsolute (Path.dirname search) = false := by
    rw [Bool.eq_false_iff, ne_eq, Path.isAbsolute_iff, hw]
    simpa using Ne.symm hslash
  unfold completionDir at hlist
  rw [hs, hrel, Bool.not_true, if_neg Bool.false_ne_true, if_neg Bool.false_ne_true] at hlist
  obtain ⟨m, hwalk, -, -⟩ := FileTree.list_eq_ok hlist
  rw [Path.parts_join, hrel, if_neg Bool.false_ne_true] at hwalk
  obtain ⟨mid, -, hmid⟩ := FileTree.walk_append_inv _ hwalk
  obtain ⟨x, hx, hxhead⟩ := FileTree.walk_parts_head hmid hw hslash hdot
  exact hnames x hx c hxhead

/-- An offered text is left as it is by stripping, in a tree whose names start and end
with no blank. -/
theorem stripString_completionPath (ht : h.files.WellFormed)
    (hunpadded : ∀ x ∈ h.files.entries, Text.stripString x.name = x.name)
    (hlist : h.files.list h.cwd (completionDir cwd search) = .ok es) (he : e ∈ es) :
    Text.stripString (completionPath search e.completion) =
      completionPath search e.completion := by
  obtain ⟨hmem, hname⟩ := FileTree.isName_of_mem_list ht hlist he
  have hends : ∀ x ∈ h.files.entries, (∀ c ∈ x.name.toList.head?, Text.isBlank c = false) ∧
      ∀ c ∈ x.name.toList.getLast?, Text.isBlank c = false := by
    intro x hx
    apply Text.strip_eq_self_iff.mp
    simpa [Text.stripString] using congrArg String.toList (hunpadded x hx)
  have hlast : ∀ c ∈ (completionPath search e.completion).toList.getLast?,
      Text.isBlank c = false := by
    rw [getLast?_completionPath hname, Entry.getLast?_completion]
    split
    · intro c hc
      cases hc
      decide
    · exact (hends e hmem).2
  have hhead : ∀ c ∈ (completionPath search e.completion).toList.head?,
      Text.isBlank c = false := by
    unfold completionPath
    split
    · rename_i hcond
      simp only [Bool.and_eq_true, Bool.not_eq_true', String.isEmpty_eq_false_iff] at hcond
      rw [Path.head?_join hcond.2 (Entry.isAbsolute_completion hname)]
      exact head_dirname_not_blank (fun x hx => (hends x hx).1) hlist hcond.1
    · rw [Entry.head?_completion hname]
      exact (hends e hmem).1
  unfold Text.stripString
  rw [Text.strip_eq_self_iff.mpr ⟨hhead, hlast⟩, String.ofList_toList]

/-- A separator without a slash does not occur in an offered text when it occurs neither
in the last value nor in the name. -/
theorem occursIn_completionPath {sep : List Char} (hsep : sep ≠ []) (hslash : '/' ∉ sep)
    (hname : Path.IsName e.name) (hsearch : Text.occursIn sep search.toList = false)
    (hunsep : Text.occursIn sep e.name.toList = false) :
    Text.occursIn sep (completionPath search e.completion).toList = false := by
  have hcompl := Entry.occursIn_completion (e := e) hsep hslash
  unfold completionPath
  split
  · rename_i hcond
    simp only [Bool.and_eq_true, Bool.not_eq_true', String.isEmpty_eq_false_iff] at hcond
    obtain ⟨a', ha', hjoin⟩ := Path.join_eq_slash hcond.2 (Entry.isAbsolute_completion hname)
    have hbefore : Text.occursIn sep a' = false := by
      cases hocc : Text.occursIn sep a'
      · rfl
      · have := Text.IsPrefix.occursIn (ha'.trans (Path.isPrefix_dirname search)) hocc
        rw [hsearch] at this
        cases this
    rw [hjoin, Text.occursIn_append_cons hsep hslash, hbefore, hcompl, hunsep]
    rfl
  · rw [hcompl, hunsep]

end Paths

/-! ## Checking what completion offers -/

/-- What a rule needs of a tree to read back every value it completes there. A file rule
strips blanks from each value, cuts several values at its separator, and checks the suffix
of a file where completion looks at its extension; a directory rule checks one value. -/
structure ReadsBack (r : FileRule) (t : FileTree) : Prop where
  /-- A directory rule takes one value. -/
  single : r.kind = .directory → r.multiple = false
  /-- Several files are cut at a separator that is not empty, does not overlap itself and
  holds no slash. -/
  separator : r.kind = .file → r.multiple = true →
    r.separator ≠ "" ∧ Text.Unbordered r.separator.toList ∧ '/' ∉ r.separator.toList
  /-- No name starts or ends with a blank. -/
  unpadded : r.kind = .file → ∀ e ∈ t.entries, Text.stripString e.name = e.name
  /-- No name holds the separator. -/
  unseparated : r.kind = .file → r.multiple = true → ∀ e ∈ t.entries,
    Text.occursIn r.separator.toList e.name.toList = false
  /-- The suffix of a file is its extension. -/
  suffixed : r.kind = .file → r.extensions ≠ [] → ∀ e ∈ t.entries, e.kind = .file →
    Path.extension e.name = Path.suffix e.name

section Check

variable {r : FileRule} {h : Host} {cwd : String}

/-- A rule that reads its values back cuts several values at a separator that is not
empty: several directories are not taken. -/
theorem ReadsBack.separator_ne {t : FileTree} (hback : r.ReadsBack t) (hm : r.multiple = true) :
    r.separator ≠ "" := by
  cases hk : r.kind
  · exact (hback.separator hk hm).1
  · rw [hback.single hk] at hm
    cases hm

/-- Values are checked one by one: they all pass when those of each part do. -/
theorem checkEach_append_valid (xs ys : List String) :
    (r.checkEach h cwd (xs ++ ys)).valid =
      ((r.checkEach h cwd xs).valid && (r.checkEach h cwd ys).valid) := by
  induction xs with
  | nil => rfl
  | cons v vs ih =>
    simp only [List.cons_append, checkEach]
    split
    · exact ih
    · split
      · rfl
      · split
        · rfl
        · exact ih

/-- A value that stripping leaves, naming an entry whose suffix is allowed when it is a
file, passes and lets the check go on. -/
theorem checkEach_cons_of_found {v : String} {e : Entry} (vs : List String)
    (hstrip : Text.stripString v = v)
    (hfound : h.files.statNormal h.cwd (Path.join cwd v) = some e)
    (hext : r.extensions ≠ [] → e.kind = .file →
      r.allows (Path.suffix (Path.join cwd v)) = true) :
    r.checkEach h cwd (v :: vs) = r.checkEach h cwd vs := by
  simp only [checkEach, hstrip]
  split
  · rfl
  rw [hfound]
  dsimp only
  rw [if_neg]
  intro hbad
  simp only [Bool.and_eq_true, Bool.not_eq_true', List.isEmpty_eq_false_iff, beq_iff_eq] at hbad
  obtain ⟨⟨hne, hfile⟩, hnot⟩ := hbad
  rw [hext hne hfile] at hnot
  cases hnot

theorem accepts_single (hk : r.kind = .file) (hm : r.multiple = false) (v : String) :
    r.accepts h cwd v = (r.checkEach h cwd [v]).valid := by
  unfold accepts check
  rw [hk, hm]
  rfl

theorem accepts_multiple (hk : r.kind = .file) (hm : r.multiple = true) {v : String}
    {parts : List (List Char)} (hsplit : Text.splitOn? r.separator.toList v.toList = some parts) :
    r.accepts h cwd v = (r.checkEach h cwd (parts.map String.ofList)).valid := by
  unfold accepts check
  rw [hk, hm, hsplit]
  rfl

/-- With several values, a value without the separator written after the separator passes
when the values before it pass and it does. -/
theorem accepts_append_sep (hk : r.kind = .file) (hm : r.multiple = true)
    (hsep : r.separator ≠ "") (hunb : Text.Unbordered r.separator.toList) (before : List Char)
    {v : String} (hv : Text.occursIn r.separator.toList v.toList = false) :
    r.accepts h cwd (String.ofList before ++ r.separator ++ v) =
      (r.accepts h cwd (String.ofList before) && r.accepts h cwd v) := by
  have hl : r.separator.toList ≠ [] := fun h => hsep (String.toList_eq_nil_iff.mp h)
  obtain ⟨pb, hpb⟩ : ∃ pb, Text.splitOn? r.separator.toList before = some pb :=
    ⟨_, dif_neg hl⟩
  have hone := Text.splitOn?_of_occursIn_eq_false hl hv
  have hjoined : (String.ofList before ++ r.separator ++ v).toList =
      before ++ r.separator.toList ++ v.toList := by
    simp
  rw [accepts_multiple hk hm (hjoined ▸ Text.splitOn?_append_sep hunb hpb hone),
    List.map_append, checkEach_append_valid, accepts_multiple hk hm (by simpa using hpb),
    accepts_multiple hk hm hone, List.map_singleton, String.ofList_toList]

variable {search : String} {es : List Entry} {e : Entry}

/-- A file rule lets an offered entry pass, in a tree whose names it reads back. -/
theorem checkEach_completionPath (ht : h.files.WellFormed) (hk : r.kind = .file)
    (hback : r.ReadsBack h.files)
    (hlist : h.files.list h.cwd (completionDir cwd search) = .ok es) (he : e ∈ es)
    {pattern : String} (hoffer : r.offer pattern e = some e.completion) (vs : List String) :
    r.checkEach h cwd (completionPath search e.completion :: vs) = r.checkEach h cwd vs := by
  obtain ⟨hmem, hname⟩ := FileTree.isName_of_mem_list ht hlist he
  apply checkEach_cons_of_found vs (stripString_completionPath ht (hback.unpadded hk) hlist he)
    (statNormal_completionPath ht hlist he)
  intro hne hfile
  -- the check reads the suffix of the name where completion read its extension
  have hsuffix : Path.suffix (Path.join cwd (completionPath search e.completion)) =
      Path.suffix e.name := by
    apply Path.suffix_congr
    rw [(parts_completionPath cwd search (Entry.parts_completion hname)
      (Entry.isAbsolute_completion hname)).1, Path.parts_name hname, List.getLast?_concat,
      List.getLast?_singleton]
  rw [hsuffix, ← hback.suffixed hk hne e hmem hfile]
  exact (offer_eq_some hoffer).2 hne hfile

/-- With several values, an offered text holds no separator, in a tree whose names hold
none, when the last value holds none. -/
theorem occursIn_completionPath_of_readsBack (ht : h.files.WellFormed) (hk : r.kind = .file)
    (hm : r.multiple = true) (hback : r.ReadsBack h.files)
    (hlist : h.files.list h.cwd (completionDir cwd search) = .ok es) (he : e ∈ es)
    (hsearch : Text.occursIn r.separator.toList search.toList = false) :
    Text.occursIn r.separator.toList (completionPath search e.completion).toList = false := by
  obtain ⟨hne, -, hnoslash⟩ := hback.separator hk hm
  obtain ⟨hmem, hname⟩ := FileTree.isName_of_mem_list ht hlist he
  exact occursIn_completionPath (fun h => hne (String.toList_eq_nil_iff.mp h)) hnoslash hname
    hsearch (hback.unseparated hk hm e hmem)

/-- A file rule accepts an offered entry as a value of its own, in a tree whose names it
reads back. -/
theorem accepts_completionPath (ht : h.files.WellFormed) (hk : r.kind = .file)
    (hback : r.ReadsBack h.files)
    (hlist : h.files.list h.cwd (completionDir cwd search) = .ok es) (he : e ∈ es)
    {pattern : String} (hoffer : r.offer pattern e = some e.completion)
    (hsearch : r.multiple = true → Text.occursIn r.separator.toList search.toList = false) :
    r.accepts h cwd (completionPath search e.completion) = true := by
  have hpass := checkEach_completionPath ht hk hback hlist he hoffer []
  cases hm : r.multiple with
  | false =>
    rw [accepts_single hk hm, hpass]
    rfl
  | true =>
    have hl : r.separator.toList ≠ [] :=
      fun h => (hback.separator hk hm).1 (String.toList_eq_nil_iff.mp h)
    have hone := Text.splitOn?_of_occursIn_eq_false hl
      (occursIn_completionPath_of_readsBack ht hk hm hback hlist he (hsearch hm))
    rw [accepts_multiple hk hm hone, List.map_singleton, String.ofList_toList, hpass]
    rfl

theorem accepts_directory_completionPath (ht : h.files.WellFormed) (hk : r.kind = .directory)
    (hlist : h.files.list h.cwd (completionDir cwd search) = .ok es) (he : e ∈ es)
    (hslash : (completionPath search e.completion).endsWith "/" = true) :
    r.accepts h cwd (completionPath search e.completion) = true := by
  obtain ⟨-, hname⟩ := FileTree.isName_of_mem_list ht hlist he
  have hdir : e.kind = .directory := by
    obtain ⟨a, ha⟩ := Path.endsWith_slash hslash
    have hlast : (completionPath search e.completion).toList.getLast? = some '/' := by
      rw [ha]
      simp
    rw [getLast?_completionPath hname, Entry.getLast?_completion] at hlast
    split at hlast
    · assumption
    · exact absurd (List.mem_of_getLast? hlast) hname.2.2.2
  unfold accepts check
  rw [hk]
  dsimp only
  rw [statNormal_completionPath ht hlist he]
  dsimp only
  rw [hdir]
  rfl

end Check

/-! ## Completions pass the check -/

/-- A file rule accepts every completion it offers, in a tree as a file system has it whose
names the rule reads back, once the values kept before the last separator are accepted. -/
theorem completions_pass_check (r : FileRule) (h : Host) (cwd value : String)
    (ht : h.files.WellFormed) (hback : r.ReadsBack h.files)
    (hkept : r.multiple = true → ∀ before after,
      Text.splitLast? r.separator.toList value.toList = some (before, after) →
      r.accepts h cwd (String.ofList before) = true) :
    ∃ cs, r.complete h cwd value = .ok cs ∧ ∀ c ∈ cs, r.accepts h cwd c = true := by
  obtain ⟨kept, search, hsplit, hsearch, hform⟩ := splitValues_spec hback.separator_ne value
  obtain ⟨cs, hcs⟩ := @complete_ok r h cwd value kept search hsplit
  refine ⟨cs, hcs, fun c hc => ?_⟩
  obtain ⟨kept', search', hsplit', es, e, pattern, n, hlist, he, hoffer, rfl, hslash⟩ :=
    mem_complete hcs hc
  rw [hsplit] at hsplit'
  cases hsplit'
  obtain ⟨rfl, -⟩ := offer_eq_some hoffer
  cases hk : r.kind with
  | directory =>
    rcases hform with rfl | ⟨_, hm, -⟩
    · rw [String.empty_append] at hslash ⊢
      exact accepts_directory_completionPath ht hk hlist he (hslash hk)
    · rw [hback.single hk] at hm
      cases hm
  | file =>
    rcases hform with rfl | ⟨before, hm, hbefore, rfl⟩
    · rw [String.empty_append]
      exact accepts_completionPath ht hk hback hlist he hoffer hsearch
    · obtain ⟨hne, hunb, -⟩ := hback.separator hk hm
      rw [accepts_append_sep hk hm hne hunb before
          (occursIn_completionPath_of_readsBack ht hk hm hback hlist he (hsearch hm)),
        hkept hm before _ hbefore, accepts_completionPath ht hk hback hlist he hoffer hsearch]
      rfl

/-- Two files of C in a directory `src`, seen from the root. -/
def sourceHost : Host :=
  { files := { entries := [{ path := ["src"], kind := .directory },
      { path := ["src", "main.c"], kind := .file }, { path := ["src", "util.c"], kind := .file }] }
    cwd := [], env := [], behaviour := fun _ _ ↦ .error .execFormat }

def cSources : FileRule := { extensions := [".c"], multiple := true }

theorem completions_pass_check_after_main :
    sourceHost.files.WellFormed ∧ cSources.ReadsBack sourceHost.files ∧
      (cSources.multiple = true → ∀ before after,
        Text.splitLast? cSources.separator.toList "src/main.c,src/u".toList =
          some (before, after) →
        cSources.accepts sourceHost "/" (String.ofList before) = true) ∧
      ∃ cs, cSources.complete sourceHost "/" "src/main.c,src/u" = .ok cs ∧
        ∀ c ∈ cs, cSources.accepts sourceHost "/" c = true := by
  have ht : sourceHost.files.WellFormed := ⟨by decide, by decide +kernel⟩
  have hback : cSources.ReadsBack sourceHost.files :=
    { single := by decide
      separator := fun _ _ => ⟨by decide, by decide, by decide⟩
      unpadded := fun _ => by decide +kernel
      unseparated := fun _ _ => by decide +kernel
      suffixed := fun _ _ => by decide +kernel }
  have hkept : cSources.multiple = true → ∀ before after,
      Text.splitLast? cSources.separator.toList "src/main.c,src/u".toList =
        some (before, after) →
      cSources.accepts sourceHost "/" (String.ofList before) = true := by
    intro _ before after hsplit
    have hlast : Text.splitLast? cSources.separator.toList "src/main.c,src/u".toList =
        some ("src/main.c".toList, "src/u".toList) := by
      decide +kernel
    rw [hlast] at hsplit
    cases hsplit
    decide +kernel
  exact ⟨ht, hback, hkept,
    completions_pass_check cSources sourceHost "/" "src/main.c,src/u" ht hback hkept⟩

example : (cSources.complete sourceHost "/" "src/main.c,src/u").toOption =
    some ["src/main.c,src/util.c"] := by
  decide +kernel

/-- A name that holds the separator is offered whole and checked in pieces: with a blank
as separator, `sp` completes to the directory `space dir/`, which is checked as `space` and
`dir/`. -/
theorem spaced_directory_offered_then_refused :
    (({ multiple := true, separator := " " } : FileRule).complete
        { files := { entries := [{ path := ["space dir"], kind := .directory }] }, cwd := [],
          env := [], behaviour := fun _ _ ↦ .error .execFormat } "/" "sp").toOption =
      some ["space dir/"] ∧
    (({ multiple := true, separator := " " } : FileRule).check
        { files := { entries := [{ path := ["space dir"], kind := .directory }] }, cwd := [],
          env := [], behaviour := fun _ _ ↦ .error .execFormat } "/" "space dir/").toOption.map
        (fun v => (v.valid, v.message)) = some (false, "File not found: space") := by
  decide +kernel

end FileRule

end FlagLine
