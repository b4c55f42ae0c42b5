import FlagLine.Host.Files
import FlagLine.Proofs.Text.Split
/-!
# Walking a tree of files along the parts of a path

Listing a directory walks the parts of its path text as the system does, keeping single
points; checking a path walks its normalised parts, without them. A point changes nothing
along a walk, so a listing that succeeds is found again through the normalised parts
(`list_eq_ok`). The parts of a text joined to another are those of the first and then those
of the second, unless the second is absolute (`Path.parts_join`). So the entry that a
listing shows, named after its directory's path, is the entry that the check finds
(`statNormal_of_mem_list`), in a tree whose paths are distinct and made of proper names.
-/

namespace FlagLine

namespace Path

/-- A name an entry can have: not empty, neither one point nor two, and without a slash. -/
def IsName (n : String) : Prop := n ≠ "" ∧ n ≠ "." ∧ n ≠ ".." ∧ '/' ∉ n.toList

instance (n : String) : Decidable (IsName n) :=
  inferInstanceAs (Decidable (n ≠ "" ∧ n ≠ "." ∧ n ≠ ".." ∧ '/' ∉ n.toList))

theorem IsName.head_ne {n : String} (h : IsName n) : ∃ c r, n.toList = c :: r ∧ c ≠ '/' := by
  obtain ⟨hne, -, -, hslash⟩ := h
  cases hn : n.toList with
  | nil => exact absurd (String.toList_eq_nil_iff.mp hn) hne
  | cons c r =>
    refine ⟨c, r, rfl, fun hc => hslash ?_⟩
    rw [hn, hc]
    exact List.mem_cons_self

/-! ## Parts of joined texts -/

@[simp] theorem parts_empty : parts "" = [] := by
  simp [parts, Text.splitOnChar, Text.splitOnAux_nil]

/-- A text cut at a slash has the parts before it, then those after it. -/
theorem parts_append_slash (a b : String) : parts (a ++ "/" ++ b) = parts a ++ parts b := by
  have h : (a ++ "/" ++ b).toList = a.toList ++ '/' :: b.toList := by simp
  simp only [parts, h, Text.splitOnChar_append_cons, List.filter_append, List.map_append]

theorem isAbsolute_iff (p : String) : isAbsolute p = true ↔ ['/'] <+: p.toList :=
  String.startsWith_string_iff

@[simp] theorem isAbsolute_empty : isAbsolute "" = false := by
  rw [Bool.eq_false_iff, ne_eq, isAbsolute_iff]
  simp

theorem isAbsolute_append {a : String} (ha : a ≠ "") (b : String) :
    isAbsolute (a ++ b) = isAbsolute a := by
  obtain ⟨c, r, hc⟩ : ∃ c r, a.toList = c :: r := by
    cases h : a.toList with
    | nil => exact absurd (String.toList_eq_nil_iff.mp h) ha
    | cons c r => exact ⟨c, r, rfl⟩
  rw [Bool.eq_iff_iff, isAbsolute_iff, isAbsolute_iff, String.toList_append, hc]
  simp

theorem endsWith_slash {a : String} (h : a.endsWith "/" = true) : ∃ a', a = a' ++ "/" := by
  rw [← String.endsWith_toSlice, String.Slice.endsWith_string_iff] at h
  obtain ⟨t, ht⟩ := h
  refine ⟨String.ofList t, ?_⟩
  apply String.toList_injective
  simpa using ht.symm

theorem isAbsolute_join (a b : String) :
    isAbsolute (join a b) = (isAbsolute a || isAbsolute b) := by
  unfold join
  by_cases hb : isAbsolute b = true
  · simp [hb]
  rw [if_neg hb, Bool.eq_false_iff.mpr hb, Bool.or_false]
  by_cases ha : a = ""
  · subst ha
    simpa using hb
  split
  · exact isAbsolute_append ha b
  · rw [String.append_assoc, isAbsolute_append ha]

/-- The parts of a text joined to another: those of the first, then those of the second,
unless the second is absolute. -/
theorem parts_join (a b : String) :
    parts (join a b) = if isAbsolute b then parts b else parts a ++ parts b := by
  unfold join
  split
  · rfl
  split
  · rename_i hsplit
    rcases Bool.or_eq_true _ _ ▸ hsplit with hempty | hslash
    · rw [String.isEmpty_iff.mp hempty]
      simp
    · obtain ⟨a', rfl⟩ := endsWith_slash hslash
      have h := parts_append_slash a' ""
      rw [String.append_empty, parts_empty, List.append_nil] at h
      rw [parts_append_slash, h]
  · exact parts_append_slash a b

theorem join_empty_left {b : String} (hb : isAbsolute b = false) : join "" b = b := by
  simp [join, hb]

/-- A name is its own only part, with or without a slash after it. -/
theorem parts_name {n : String} (h : IsName n) : parts n = [n] := by
  obtain ⟨hne, hdot, -, hslash⟩ := h
  have hkeep : (!n.toList.isEmpty && n.toList != ['.']) = true := by
    have hl : n.toList ≠ [] := fun h => hne (String.toList_eq_nil_iff.mp h)
    have hd : n.toList ≠ ['.'] := fun h => hdot (String.toList_injective (by simpa using h))
    simp [hl, hd]
  simp [parts, Text.splitOnChar_of_not_mem hslash, hkeep]

theorem parts_name_slash {n : String} (h : IsName n) : parts (n ++ "/") = [n] := by
  have := parts_append_slash n ""
  rwa [String.append_empty, parts_empty, List.append_nil, parts_name h] at this

theorem isAbsolute_name {n : String} (h : IsName n) : isAbsolute n = false := by
  obtain ⟨c, r, hn, hc⟩ := h.head_ne
  rw [Bool.eq_false_iff, ne_eq, isAbsolute_iff, hn]
  simpa using hc.symm

theorem isAbsolute_name_slash {n : String} (h : IsName n) : isAbsolute (n ++ "/") = false := by
  rw [isAbsolute_append h.1, isAbsolute_name h]

/-- A text that starts with a character other than a slash or a point has a first part
that starts with it. -/
theorem parts_head {p : String} {c : Char} {r : List Char} (hp : p.toList = c :: r)
    (hslash : c ≠ '/') (hdot : c ≠ '.') :
    ∃ piece rest, parts p = piece :: rest ∧ piece.toList.head? = some c := by
  obtain ⟨x, ys, hsplit⟩ := Text.splitOnChar_cons_of_ne hslash r
  have hkeep : (!(c :: x).isEmpty && (c :: x) != ['.']) = true := by
    simp [hdot]
  refine ⟨String.ofList (c :: x),
    (ys.filter (fun c => !c.isEmpty && c != ['.'])).map String.ofList, ?_, by simp⟩
  simp only [parts, hp, hsplit, List.filter_cons, hkeep, if_true, List.map_cons]

theorem suffix_congr {p q : String} (h : (parts p).getLast? = (parts q).getLast?) :
    suffix p = suffix q := by
  unfold suffix
  rw [h]

/-! ## Characters of joined texts -/

theorem head?_join {a b : String} (ha : a ≠ "") (hb : isAbsolute b = false) :
    (join a b).toList.head? = a.toList.head? := by
  obtain ⟨c, r, hc⟩ := List.exists_cons_of_ne_nil (fun h => ha (String.toList_eq_nil_iff.mp h))
  unfold join
  rw [if_neg (by simp [hb])]
  split
  · rw [String.toList_append, hc]
    rfl
  · rw [String.toList_append, String.toList_append, hc]
    rfl

/-- A text that is not empty, joined after another, ends as it does. -/
theorem getLast?_join (a : String) {b : String} (hb : b ≠ "") :
    (join a b).toList.getLast? = b.toList.getLast? := by
  have hlast : ∀ x : List Char, (x ++ b.toList).getLast? = b.toList.getLast? := by
    intro x
    rw [List.getLast?_append,
      List.getLast?_eq_some_getLast (fun h => hb (String.toList_eq_nil_iff.mp h))]
    rfl
  unfold join
  split
  · rfl
  split
  · rw [String.toList_append, hlast]
  · rw [String.toList_append, hlast]

/-- A relative text joined after another that is not empty follows a slash, after a part
of the first text. -/
theorem join_eq_slash {a b : String} (ha : a ≠ "") (hb : isAbsolute b = false) :
    ∃ a' : List Char, a' <+: a.toList ∧ (join a b).toList = a' ++ '/' :: b.toList := by
  unfold join
  rw [if_neg (by simp [hb])]
  split
  · rename_i hsplit
    rcases Bool.or_eq_true _ _ ▸ hsplit with hempty | hslash
    · exact absurd (String.isEmpty_iff.mp hempty) ha
    · obtain ⟨a', rfl⟩ := endsWith_slash hslash
      exact ⟨a'.toList, by simp, by simp⟩
  · exact ⟨a.toList, List.prefix_refl _, by simp⟩

theorem isPrefix_dirname (p : String) : (dirname p).toList <+: p.toList := by
  have htake : (splitLastSlash p.toList).1 <+: p.toList := List.take_prefix _ _
  unfold dirname
  dsimp only
  split
  · simpa using htake
  · refine List.IsPrefix.trans ?_ htake
    generalize (splitLastSlash p.toList).1 = head
    have hsplit := List.takeWhile_append_dropWhile (p := (· == '/')) (l := head.reverse)
    conv => rhs; rw [← List.reverse_reverse head, ← hsplit, List.reverse_append]
    simp

/-- The parts walked to list a directory are its normalised parts with single points. -/
theorem walkParts_filter (p : String) : (walkParts p).filter (· != ".") = parts p := by
  have hpoint : ∀ c : List Char, (String.ofList c != ".") = (c != ['.']) := by
    intro c
    have h : String.ofList c = "." ↔ c = ['.'] :=
      ⟨fun h => by simpa using congrArg String.toList h, fun h => by rw [h]⟩
    have hbeq : (String.ofList c == ".") = (c == ['.']) := by
      rw [Bool.eq_iff_iff, beq_iff_eq, beq_iff_eq, h]
    rw [bne, bne, hbeq]
  have hkept : (((Text.splitOnChar '/' p.toList).filter (fun c => !c.isEmpty)).map
      String.ofList).filter (· != ".") = parts p := by
    unfold parts
    rw [List.filter_map, List.filter_filter]
    congr 1
    apply List.filter_congr
    intro c _
    simp only [Function.comp_apply, hpoint, Bool.and_comm]
  unfold walkParts
  split
  · rw [List.filter_append, hkept]
    simp
  · exact hkept

end Path

/-- The name of an entry: the last part of its path. -/
def Entry.name (e : Entry) : String := e.path.getLast?.getD ""

namespace FileTree

/-- A tree as a file system has it: no two entries at one path, and every part of a path a
proper name. -/
structure WellFormed (t : FileTree) : Prop where
  distinct : (t.entries.map Entry.path).Nodup
  named : ∀ e ∈ t.entries, e.path ≠ [] ∧ ∀ n ∈ e.path, Path.IsName n

/-- A path of a tree at which there is a directory. -/
def IsDir (t : FileTree) (path : List String) : Prop :=
  ∃ d, t.find? path = some d ∧ d.kind = .directory

variable {t : FileTree}

theorem find?_path {path : List String} {e : Entry} (h : t.find? path = some e) :
    e.path = path := by
  unfold find? at h
  split at h
  · rename_i hempty
    cases h
    exact (List.isEmpty_iff.mp hempty).symm
  · simpa using List.find?_some h

theorem mem_of_find? {path : List String} {e : Entry} (hne : path ≠ [])
    (h : t.find? path = some e) :
    e ∈ t.entries := by
  unfold find? at h
  rw [if_neg (by simpa using hne)] at h
  exact List.mem_of_find?_eq_some h

/-- In a list of entries with distinct paths, an entry is the first one at its path. -/
theorem find?_path_of_nodup {e : Entry} :
    ∀ {es : List Entry}, (es.map Entry.path).Nodup → e ∈ es →
      es.find? (fun x => x.path == e.path) = some e
  | [], _, he => by cases he
  | x :: xs, hdist, he => by
    rw [List.map_cons, List.nodup_cons] at hdist
    by_cases hx : x.path = e.path
    · have hxe : x = e := by
        rcases List.mem_cons.mp he with h | h
        · exact h.symm
        · exact absurd (hx ▸ List.mem_map_of_mem (f := Entry.path) h) hdist.1
      simp [hxe]
    · have hxs : e ∈ xs := by
        rcases List.mem_cons.mp he with h | h
        · exact absurd (h ▸ rfl) hx
        · exact h
      simp [hx, find?_path_of_nodup hdist.2 hxs]

/-- An entry of a tree with distinct paths is the one found at its path. -/
theorem WellFormed.find?_entry (ht : t.WellFormed) {e : Entry} (he : e ∈ t.entries) :
    t.find? e.path = some e := by
  unfold find?
  rw [if_neg (by simpa using (ht.named e he).1)]
  exact find?_path_of_nodup ht.distinct he

/-! ## Walks -/

theorem walk_cons (cur : List String) (p : String) (ps : List String) :
    t.walk cur (p :: ps) =
      if p == "." then t.walk cur ps
      else if p == ".." then t.walk cur.dropLast ps
      else match t.find? (cur ++ [p]) with
        | none => .error .notFound
        | some e => match e.kind with
          | .directory => t.walk (cur ++ [p]) ps
          | .file => if ps.isEmpty then .ok (cur ++ [p]) else .error .notDirectory :=
  rfl

/-! The four steps a walk can take: stay at a point, go up at two points, go down into a
directory, or end at a file. -/

section Steps

variable {cur : List String} {p : String} {ps : List String} {e : Entry}

theorem walk_point : t.walk cur ("." :: ps) = t.walk cur ps := by
  rw [walk_cons, if_pos (by decide)]

theorem walk_up : t.walk cur (".." :: ps) = t.walk cur.dropLast ps := by
  rw [walk_cons, if_neg (by decide), if_pos (by decide)]

theorem walk_into (hdot : p ≠ ".") (hdots : p ≠ "..") (hfind : t.find? (cur ++ [p]) = some e)
    (hkind : e.kind = .directory) : t.walk cur (p :: ps) = t.walk (cur ++ [p]) ps := by
  rw [walk_cons, if_neg (by simpa using hdot), if_neg (by simpa using hdots), hfind]
  dsimp only
  rw [hkind]

theorem walk_file (hdot : p ≠ ".") (hdots : p ≠ "..") (hfind : t.find? (cur ++ [p]) = some e)
    (hkind : e.kind = .file) : t.walk cur [p] = .ok (cur ++ [p]) := by
  rw [walk_cons, if_neg (by simpa using hdot), if_neg (by simpa using hdots), hfind]
  dsimp only
  rw [hkind]
  rfl

theorem walk_cons_eq_ok {m : List String} (h : t.walk cur (p :: ps) = .ok m) :
    (p = "." ∧ t.walk cur ps = .ok m) ∨ (p = ".." ∧ t.walk cur.dropLast ps = .ok m) ∨
      ∃ e, p ≠ "." ∧ p ≠ ".." ∧ t.find? (cur ++ [p]) = some e ∧
        ((e.kind = .directory ∧ t.walk (cur ++ [p]) ps = .ok m) ∨
          (e.kind = .file ∧ ps = [] ∧ m = cur ++ [p])) := by
  by_cases hdot : p = "."
  · subst hdot
    exact .inl ⟨rfl, walk_point ▸ h⟩
  by_cases hdots : p = ".."
  · subst hdots
    exact .inr (.inl ⟨rfl, walk_up ▸ h⟩)
  refine .inr (.inr ?_)
  rw [walk_cons, if_neg (by simpa using hdot), if_neg (by simpa using hdots)] at h
  cases hfind : t.find? (cur ++ [p]) with
  | none =>
    rw [hfind] at h
    cases h
  | some e =>
    rw [hfind] at h
    dsimp only at h
    refine ⟨e, hdot, hdots, rfl, ?_⟩
    cases hkind : e.kind with
    | directory =>
      rw [hkind] at h
      exact .inl ⟨rfl, h⟩
    | file =>
      rw [hkind] at h
      dsimp only at h
      split at h
      · rename_i hempty
        cases h
        exact .inr ⟨rfl, List.isEmpty_iff.mp hempty, rfl⟩
      · cases h

end Steps

theorem walk_filter_point {m : List String} :
    ∀ {cur : List String} {ps : List String}, t.walk cur ps = .ok m →
      t.walk cur (ps.filter (· != ".")) = .ok m
  | cur, [], h => h
  | cur, p :: ps, h => by
    rcases walk_cons_eq_ok h with ⟨rfl, h⟩ | ⟨rfl, h⟩ |
      ⟨e, hdot, hdots, hfind, ⟨hk, h⟩ | ⟨hk, rfl, rfl⟩⟩
    · rw [List.filter_cons_of_neg (by decide)]
      exact walk_filter_point h
    · rw [List.filter_cons_of_pos (by decide), walk_up]
      exact walk_filter_point h
    · rw [List.filter_cons_of_pos (by simpa using hdot), walk_into hdot hdots hfind hk]
      exact walk_filter_point h
    · rw [List.filter_cons_of_pos (by simpa using hdot)]
      exact walk_file hdot hdots hfind hk

theorem walk_append_of_isDir {m : List String} (hdir : t.IsDir m) (qs : List String) :
    ∀ {cur : List String} {ps : List String}, t.walk cur ps = .ok m →
      t.walk cur (ps ++ qs) = t.walk m qs
  | cur, [], h => by
    cases h
    rfl
  | cur, p :: ps, h => by
    rcases walk_cons_eq_ok h with ⟨rfl, h⟩ | ⟨rfl, h⟩ |
      ⟨e, hdot, hdots, hfind, ⟨hk, h⟩ | ⟨hk, rfl, rfl⟩⟩
    · rw [List.cons_append, walk_point]
      exact walk_append_of_isDir hdir qs h
    · rw [List.cons_append, walk_up]
      exact walk_append_of_isDir hdir qs h
    · rw [List.cons_append, walk_into hdot hdots hfind hk]
      exact walk_append_of_isDir hdir qs h
    · obtain ⟨d, hd, hdkind⟩ := hdir
      rw [hfind] at hd
      cases hd
      rw [hk] at hdkind
      cases hdkind

/-- A walk through two lists of parts passes through the end of the first. -/
theorem walk_append_inv {m : List String} (qs : List String) :
    ∀ {cur : List String} {ps : List String}, t.walk cur (ps ++ qs) = .ok m →
      ∃ mid, t.walk cur ps = .ok mid ∧ t.walk mid qs = .ok m
  | cur, [], h => ⟨cur, rfl, h⟩
  | cur, p :: ps, h => by
    rw [List.cons_append] at h
    rcases walk_cons_eq_ok h with ⟨rfl, h⟩ | ⟨rfl, h⟩ |
      ⟨e, hdot, hdots, hfind, ⟨hk, h⟩ | ⟨hk, hnil, rfl⟩⟩
    · rw [walk_point]
      exact walk_append_inv qs h
    · rw [walk_up]
      exact walk_append_inv qs h
    · rw [walk_into hdot hdots hfind hk]
      exact walk_append_inv qs h
    · obtain ⟨rfl, rfl⟩ := List.append_eq_nil_iff.mp hnil
      exact ⟨_, walk_file hdot hdots hfind hk, rfl⟩

/-- A walk goes down through a name only where the tree has an entry. -/
theorem walk_cons_entry {cur m : List String} {p : String} {ps : List String}
    (h : t.walk cur (p :: ps) = .ok m) (hdot : p ≠ ".") (hdots : p ≠ "..") :
    ∃ e ∈ t.entries, e.path = cur ++ [p] := by
  rcases walk_cons_eq_ok h with ⟨hp, -⟩ | ⟨hp, -⟩ | ⟨e, -, -, hfind, -⟩
  · exact absurd hp hdot
  · exact absurd hp hdots
  · exact ⟨e, mem_of_find? (by simp) hfind, find?_path hfind⟩

/-- A walk from a directory to a name in it ends at the entry of that name. -/
theorem walk_name {cur : List String} {n : String} {e : Entry} (hn : Path.IsName n)
    (hfind : t.find? (cur ++ [n]) = some e) : t.walk cur [n] = .ok (cur ++ [n]) := by
  cases hk : e.kind with
  | directory => rw [walk_into hn.2.1 hn.2.2.1 hfind hk]; rfl
  | file => exact walk_file hn.2.1 hn.2.2.1 hfind hk

/-! ## Listing and checking -/

/-- Where the walk of a path text starts: at the root for an absolute text. -/
def start (cwd : List String) (p : String) : List String :=
  if Path.isAbsolute p then [] else cwd

theorem stat_eq_ok {cwd : List String} {p : String} {e : Entry} (h : t.stat cwd p = .ok e) :
    ∃ m, t.locate cwd p = .ok m ∧ t.find? m = some e := by
  unfold stat at h
  cases hloc : t.locate cwd p with
  | error err => rw [hloc] at h; cases h
  | ok m =>
    rw [hloc] at h
    cases hfind : t.find? m with
    | none => simp [hfind, bind, Except.bind, throw, throwThe, MonadExceptOf.throw] at h
    | some d =>
      simp [hfind, bind, Except.bind, pure, Except.pure] at h
      exact ⟨m, rfl, h ▸ hfind⟩

theorem list_eq_ok_stat {cwd : List String} {p : String} {es : List Entry}
    (h : t.list cwd p = .ok es) :
    ∃ e, t.stat cwd p = .ok e ∧ e.kind = .directory ∧ es = t.children e.path := by
  unfold list at h
  cases hstat : t.stat cwd p with
  | error err => rw [hstat] at h; cases h
  | ok e =>
    rw [hstat] at h
    cases hkind : e.kind with
    | file => simp [hkind, bind, Except.bind, throw, throwThe, MonadExceptOf.throw] at h
    | directory =>
      simp [hkind, bind, Except.bind, pure, Except.pure] at h
      exact ⟨e, rfl, hkind, h.symm⟩

/-- A listing that succeeds lists the entries of a directory that the normalised parts of
its path lead to. -/
theorem list_eq_ok {cwd : List String} {p : String} {es : List Entry}
    (h : t.list cwd p = .ok es) :
    ∃ m, t.walk (start cwd p) (Path.parts p) = .ok m ∧ t.IsDir m ∧ es = t.children m := by
  obtain ⟨d, hstat, hkind, rfl⟩ := list_eq_ok_stat h
  obtain ⟨m, hloc, hfind⟩ := stat_eq_ok hstat
  unfold locate at hloc
  split at hloc
  · cases hloc
  -- the listing walked the parts with their single points, which change nothing
  have hwalk := walk_filter_point hloc
  rw [Path.walkParts_filter] at hwalk
  exact ⟨m, hwalk, ⟨d, hfind, hkind⟩, by rw [find?_path hfind]⟩

/-- An entry that a directory lists sits right below it under its own name. -/
theorem mem_children {m : List String} {e : Entry} (h : e ∈ t.children m) :
    e ∈ t.entries ∧ e.path = m ++ [e.name] := by
  simp only [children, List.mem_filter, Bool.and_eq_true, beq_iff_eq, Bool.not_eq_true',
    List.isEmpty_eq_false_iff] at h
  obtain ⟨he, hdrop, hne⟩ := h
  refine ⟨he, ?_⟩
  rw [← hdrop, Entry.name, List.getLast?_eq_some_getLast hne, Option.getD_some,
    List.dropLast_concat_getLast hne]

/-- An entry that a listing shows is an entry of the tree with a proper name. -/
theorem isName_of_mem_list (ht : t.WellFormed) {cwd : List String} {d : String}
    {es : List Entry} {e : Entry} (hlist : t.list cwd d = .ok es) (he : e ∈ es) :
    e ∈ t.entries ∧ Path.IsName e.name := by
  obtain ⟨m, -, -, rfl⟩ := list_eq_ok hlist
  obtain ⟨hmem, hpath⟩ := mem_children he
  refine ⟨hmem, (ht.named e hmem).2 e.name ?_⟩
  rw [hpath]
  exact List.mem_append_right _ List.mem_cons_self

/-- The check finds an entry that a listing shows at any path text whose parts are those
of the listed directory and the entry's name. -/
theorem statNormal_of_mem_list (ht : t.WellFormed) {cwd : List String} {d p : String}
    {es : List Entry} {e : Entry} (hlist : t.list cwd d = .ok es) (he : e ∈ es)
    (hparts : Path.parts p = Path.parts d ++ [e.name])
    (habs : Path.isAbsolute p = Path.isAbsolute d) : t.statNormal cwd p = some e := by
  obtain ⟨-, hname⟩ := isName_of_mem_list ht hlist he
  obtain ⟨m, hwalk, hdir, rfl⟩ := list_eq_ok hlist
  obtain ⟨hmem, hpath⟩ := mem_children he
  have hfind : t.find? (m ++ [e.name]) = some e := hpath ▸ ht.find?_entry hmem
  unfold statNormal
  rw [show (if Path.isAbsolute p then [] else cwd) = start cwd d by rw [habs]; rfl, hparts,
    walk_append_of_isDir hdir _ hwalk, walk_name hname hfind]
  exact hfind

/-- Every name a walk goes down through is the name of an entry: a path text that starts
with a character other than a slash or a point starts with the name of an entry. -/
theorem walk_parts_head {cur m : List String} {p : String} {c : Char} {r : List Char}
    (h : t.walk cur (Path.parts p) = .ok m) (hp : p.toList = c :: r) (hslash : c ≠ '/')
    (hdot : c ≠ '.') : ∃ e ∈ t.entries, e.name.toList.head? = some c := by
  obtain ⟨piece, rest, hparts, hhead⟩ := Path.parts_head hp hslash hdot
  rw [hparts] at h
  have hne : ∀ q : String, q.toList.head? ≠ some c → piece ≠ q := by
    intro q hq heq
    exact hq (heq ▸ hhead)
  obtain ⟨e, he, hpath⟩ := walk_cons_entry h (hne "." (by simpa using hdot.symm))
    (hne ".." (by simpa using hdot.symm))
  refine ⟨e, he, ?_⟩
  rw [Entry.name, hpath, List.getLast?_concat, Option.getD_some]
  exact hhead

end FileTree

end FlagLine
