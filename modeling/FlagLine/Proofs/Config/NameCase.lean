import FlagLine.Config.Read
import FlagLine.Proofs.Config.MergeGrouping
import FlagLine.Proofs.Text.LowerCase
/-!
# Names in small letters, before and after merging

The categories, category maps, themes and programs of a configuration are filed under their
names in small letters, each keeping its name as written. Data is merged before it is read,
and merging compares keys as they are written. Taking the names of those sections to small
letters first (`lowerNames`) therefore gives the same configuration, each entry then named
by the key it is filed under, exactly as long as no name is spelled two ways across the merged
data: lower-casing is then a renaming that keeps which keys name one entry, and it commutes
with merging, while reading files every entry under the same small name either way, since a
name in small letters is its own small form. Where a name is spelled two ways, merging keeps
both spellings, and reading lets the later one replace the earlier instead of merging with it.
Main statement: `read_deepMerge_lowerNames`; `read_deepMerge_respelled` is a category that a
second file spells in small letters.
-/

namespace FlagLine

/-- A table with each value changed by a function of its key. -/
def Table.mapWithKey {α β : Type} (f : String → α → β) (t : Table α) : Table β :=
  t.map fun e => (e.1, f e.1 e.2)

namespace Table

variable {α β : Type} (f : String → α → β)

theorem insert_mapWithKey (t : Table α) (k : String) (x : α) :
    (t.mapWithKey f).insert k (f k x) = (t.insert k x).mapWithKey f := by
  induction t with
  | nil => rfl
  | cons e rest ih =>
    obtain ⟨k', x'⟩ := e
    by_cases hk : k = k'
    · subst hk
      simp [mapWithKey, insert]
    · simp only [mapWithKey, List.map_cons, insert, hk, if_false] at ih ⊢
      rw [ih]

theorem find?_mapWithKey (t : Table α) (k : String) :
    (t.mapWithKey f).find? k = (t.find? k).map (f k) := by
  induction t with
  | nil => rfl
  | cons e rest ih =>
    obtain ⟨k', x'⟩ := e
    by_cases hk : k = k'
    · subst hk
      simp [mapWithKey, find?]
    · simp only [mapWithKey, List.map_cons, find?, hk, if_false] at ih ⊢
      exact ih

end Table

/-- A fold through a monad commutes with maps of its state and its items when one step does. -/
theorem foldlM_map_map {m : Type → Type} [Monad m] [LawfulMonad m] {β δ γ ε : Type}
    {g : β → γ → m β} {g' : δ → ε → m δ} (p : β → δ) (r : γ → ε)
    (h : ∀ t e, g' (p t) (r e) = p <$> g t e) (es : List γ) (t : β) (t' : δ) (ht : p t = t') :
    (es.map r).foldlM g' t' = p <$> es.foldlM g t := by
  subst ht
  induction es generalizing t with
  | nil => simp
  | cons e es ih => simp [List.foldlM_cons, h, ih, map_bind]

namespace Config

open Value

/-! ## Names in small letters -/

/-- The sections whose entries are filed under their names in small letters. -/
def namedSections : List String := ["categories", "category_maps", "themes", "programs"]

/-- The named section that a key opens, if any. -/
def sectionOf? : Value → Option String
  | .str n => if n ∈ namedSections then some n else none
  | _ => none

/-- A key in small letters, when it is a text. -/
def lowerKey : Value → Value
  | .str s => .str (Text.lowerString s)
  | k => k

/-- A section with its names in small letters, as a dictionary is built from them: spellings
of one name become one entry, holding the last value in the place of the first. -/
def lowerSection : Value → Value
  | .dict es => .dict (entriesOf (es.map fun e => (lowerKey e.1, e.2)))
  | v => v

/-- A value under a key, changed when the key opens a named section. -/
def onSection (f : Value → Value) (k v : Value) : Value :=
  if (sectionOf? k).isSome then f v else v

/-- Data with a change to the value of each named section. -/
def onSections (f : Value → Value) (es : List (Value × Value)) : List (Value × Value) :=
  es.map fun e => (e.1, onSection f e.1 e.2)

/-- Data with the names of its named sections in small letters. -/
def lowerNames (es : List (Value × Value)) : List (Value × Value) := onSections lowerSection es

/-- The keys of a dictionary; none for any other value. -/
def dictKeys : Value → List Value
  | .dict es => es.map Prod.fst
  | _ => []

/-- The keys of the dictionaries that data holds under a named section. -/
def sectionKeys (es : List (Value × Value)) (n : String) : List Value :=
  es.flatMap fun e => if sectionOf? e.1 = some n then dictKeys e.2 else []

/-- Keys of which no name is spelled two ways: two of them name one entry in small letters
exactly when they name one entry as written. -/
def SpelledOnce (ks : List Value) : Prop :=
  ∀ x ∈ ks, ∀ y ∈ ks, sameKey (lowerKey x) (lowerKey y) = sameKey x y

instance (ks : List Value) : Decidable (SpelledOnce ks) :=
  inferInstanceAs (Decidable (∀ x ∈ ks, ∀ y ∈ ks, _))

/-- A configuration whose categories, category maps, themes and programs are each named by the
key they are filed under. -/
def nameByKey (c : Config) : Config :=
  { c with
    categories := c.categories.mapWithKey fun k x => { x with name := k }
    categoryMaps := c.categoryMaps.mapWithKey fun k x => { x with name := k }
    themes := c.themes.mapWithKey fun k x => { x with name := k }
    programs := c.programs.mapWithKey fun k x => { x with name := k } }

/-- A section with its names in small letters, spellings kept apart. -/
def renameSection : Value → Value
  | .dict es => .dict (es.map fun e => (lowerKey e.1, e.2))
  | v => v

theorem SpelledOnce.mono {ks ks' : List Value} (h : SpelledOnce ks)
    (hsub : ∀ x ∈ ks', x ∈ ks) :
    SpelledOnce ks' :=
  fun x hx y hy ↦ h x (hsub x hx) y (hsub y hy)

theorem sectionOf?_congr {k y : Value} (h : sameKey k y = true) : sectionOf? k = sectionOf? y := by
  obtain ⟨p, hk, hy⟩ := sameKey_iff.mp h
  cases k <;> cases y <;> simp_all [keyForm?, sectionOf?] <;> grind

/-! ## Lower-casing as a renaming -/

section Rename

variable {A B : List (Value × Value)}

/-- An entry under a key that names none of the entries before it goes at the end. -/
theorem setEntry_of_fresh {k v : Value} (acc : List (Value × Value))
    (hfresh : ∀ f ∈ acc, sameKey k f.1 = false) : setEntry k v acc = acc ++ [(k, v)] := by
  induction acc with
  | nil => rfl
  | cons f acc ih =>
    simp only [setEntry, hfresh f List.mem_cons_self, Bool.false_eq_true, if_false,
      List.cons_append]
    rw [ih fun g hg ↦ hfresh g (List.mem_cons_of_mem _ hg)]

/-- Entries under keys that name distinct entries, none named before, are added in order. -/
theorem foldl_setEntry_of_distinct (hA : DistinctKeys A) (acc : List (Value × Value))
    (hacc : ∀ e ∈ acc, ∀ f ∈ A, sameKey e.1 f.1 = false) :
    A.foldl (fun acc e ↦ setEntry e.1 e.2 acc) acc = acc ++ A := by
  induction A generalizing acc with
  | nil => simp
  | cons e rest ih =>
    obtain ⟨hhead, hrest⟩ := List.pairwise_cons.mp hA
    have hnew : setEntry e.1 e.2 acc = acc ++ [e] :=
      setEntry_of_fresh acc fun f hf ↦ by
        rw [sameKey_comm]; exact hacc f hf e List.mem_cons_self
    rw [List.foldl_cons, hnew, ih hrest (acc ++ [e]) fun g hg f hf ↦ ?_]
    · simp
    · rcases List.mem_append.mp hg with hg | hg
      · exact hacc g hg f (List.mem_cons_of_mem _ hf)
      · rw [List.mem_singleton.mp hg]
        exact hhead f.1 (List.mem_map_of_mem hf)

theorem entriesOf_of_distinct (h : DistinctKeys A) : entriesOf A = A := by
  rw [entriesOf, foldl_setEntry_of_distinct h [] (by simp), List.nil_append]

theorem DistinctKeys.rename (h : DistinctKeys A) (hspell : SpelledOnce (A.map Prod.fst)) :
    DistinctKeys (A.map fun e ↦ (lowerKey e.1, e.2)) := by
  unfold DistinctKeys at h ⊢
  have hkeys :
      (A.map fun e ↦ (lowerKey e.1, e.2)).map Prod.fst = (A.map Prod.fst).map lowerKey := by
    simp [List.map_map, Function.comp_def]
  rw [hkeys, List.pairwise_map]
  exact h.imp_of_mem fun hx hy hxy ↦ by rw [hspell _ hx _ hy]; exact hxy

/-- Lower-casing the names of a section with distinct keys, each spelled once, renames them. -/
theorem lowerSection_of_spelledOnce {v : Value}
    (hd : ∀ es, v = .dict es → DistinctKeys es) (hspell : SpelledOnce (dictKeys v)) :
    lowerSection v = renameSection v := by
  cases v with
  | dict es => simp [lowerSection, renameSection,
      entriesOf_of_distinct (DistinctKeys.rename (hd es rfl) (by simpa [dictKeys] using hspell))]
  | _ => rfl

/-- Laying an entry over renamed entries renames the result, when the keys are spelled once. -/
theorem mergeOne_rename {k v : Value} (hspell : SpelledOnce (A.map Prod.fst ++ [k])) :
    mergeOne (A.map fun e ↦ (lowerKey e.1, e.2)) (lowerKey k) v =
      (mergeOne A k v).map fun e ↦ (lowerKey e.1, e.2) := by
  induction A with
  | nil => simp
  | cons e rest ih =>
    obtain ⟨y, u⟩ := e
    have hky : sameKey (lowerKey k) (lowerKey y) = sameKey k y :=
      hspell k (by simp) y (by simp)
    simp only [List.map_cons, mergeOne_cons, hky]
    split
    · rfl
    · rw [ih (hspell.mono fun x hx ↦
        List.mem_append.mpr ((List.mem_append.mp hx).imp (List.mem_cons_of_mem _) id))]
      rfl

/-- Every key of a merge is a key of one of its sides. -/
theorem keys_mergeEntries_subset {x : Value} (hx : x ∈ (mergeEntries A B).map Prod.fst) :
    x ∈ A.map Prod.fst ∨ x ∈ B.map Prod.fst := by
  induction B generalizing A with
  | nil => simpa using hx
  | cons e rest ih =>
    obtain ⟨k, v⟩ := e
    rw [mergeEntries_cons] at hx
    rcases ih hx with h | h
    · rw [keys_mergeOne] at h
      split at h
      · exact .inl h
      · rcases List.mem_append.mp h with h | h
        · exact .inl h
        · simp at h; simp [h]
    · exact .inr (by simp only [List.map_cons, List.mem_cons]; exact .inr h)

/-- Merging renamed entries renames the merge, when the keys of both sides are spelled once. -/
theorem mergeEntries_rename (hspell : SpelledOnce (A.map Prod.fst ++ B.map Prod.fst)) :
    mergeEntries (A.map fun e ↦ (lowerKey e.1, e.2)) (B.map fun e ↦ (lowerKey e.1, e.2)) =
      (mergeEntries A B).map fun e ↦ (lowerKey e.1, e.2) := by
  induction B generalizing A with
  | nil => simp
  | cons e rest ih =>
    obtain ⟨k, v⟩ := e
    simp only [List.map_cons, mergeEntries_cons] at hspell ⊢
    rw [mergeOne_rename (hspell.mono fun x hx ↦ ?_)]
    · refine ih (hspell.mono fun x hx ↦ ?_)
      rcases List.mem_append.mp hx with hx | hx
      · rw [keys_mergeOne] at hx
        split at hx
        · exact List.mem_append_left _ hx
        · rcases List.mem_append.mp hx with hx | hx
          · exact List.mem_append_left _ hx
          · rw [List.mem_singleton.mp hx]
            exact List.mem_append_right _ List.mem_cons_self
      · exact List.mem_append_right _ (List.mem_cons_of_mem _ hx)
    · rcases List.mem_append.mp hx with hx | hx
      · exact List.mem_append_left _ hx
      · rw [List.mem_singleton.mp hx]
        exact List.mem_append_right _ List.mem_cons_self

/-- Merging renamed sections renames the merge, when the keys of both are spelled once. -/
theorem mergeValue_renameSection {x y : Value} (hspell : SpelledOnce (dictKeys x ++ dictKeys y)) :
    mergeValue (renameSection x) (renameSection y) = renameSection (mergeValue x y) := by
  cases y with
  | dict b =>
    cases x with
    | dict a =>
      simp only [renameSection, mergeValue_dict_dict, mergeEntries_rename hspell]
    | _ => simp [renameSection, mergeValue_dict_of_not_dict]
  | list ys =>
    cases x with
    | list xs => simp [renameSection]
    | _ => simp [renameSection, mergeValue_list_of_not_list]
  | _ => simp [renameSection, mergeValue_of_scalar]

/-- Every key of a merged dictionary is a key of one of the merged values. -/
theorem dictKeys_mergeValue_subset {x y k : Value} (hk : k ∈ dictKeys (mergeValue x y)) :
    k ∈ dictKeys x ++ dictKeys y := by
  cases y with
  | dict b =>
    cases x with
    | dict a =>
      rw [mergeValue_dict_dict] at hk
      exact List.mem_append.mpr (keys_mergeEntries_subset hk)
    | _ => simp_all [mergeValue_dict_of_not_dict, dictKeys]
  | list ys =>
    cases x with
    | list xs => simp [dictKeys] at hk
    | _ => simp_all [mergeValue_list_of_not_list, dictKeys]
  | _ => simp_all [mergeValue_of_scalar, dictKeys]

end Rename

/-! ## Merging data with renamed sections -/

section Merge

/-- The keys of the sections that an entry holds lie in the keys allowed for its section. -/
def WithinKeys (S : String → List Value) (e : Value × Value) : Prop :=
  ∀ n, sectionOf? e.1 = some n → ∀ k ∈ dictKeys e.2, k ∈ S n

variable {S : String → List Value} {A B : List (Value × Value)}

/-- Laying an entry over data with renamed sections renames the result, and keeps the keys
of each section among the allowed ones, when those are spelled once. -/
theorem onSections_cons (f : Value → Value) (k v : Value) (rest : List (Value × Value)) :
    onSections f ((k, v) :: rest) = (k, onSection f k v) :: onSections f rest := rfl

/-- Merging two values under a key renames the merge of the renamed values, when the keys of
the section it opens are spelled once. -/
theorem mergeValue_onSection {y u v : Value}
    (hspell : ∀ n, sectionOf? y = some n → SpelledOnce (dictKeys u ++ dictKeys v)) :
    mergeValue (onSection renameSection y u) (onSection renameSection y v) =
      onSection renameSection y (mergeValue u v) := by
  unfold onSection
  rcases hn : sectionOf? y with _ | n
  · rfl
  · simp only [Option.isSome_some, if_true]
    exact mergeValue_renameSection (hspell n hn)

theorem mergeOne_onSections (hS : ∀ n, SpelledOnce (S n)) (hA : ∀ e ∈ A, WithinKeys S e)
    {k v : Value} (hkv : WithinKeys S (k, v)) :
    mergeOne (onSections renameSection A) k (onSection renameSection k v) =
      onSections renameSection (mergeOne A k v) ∧ ∀ e ∈ mergeOne A k v, WithinKeys S e := by
  induction A with
  | nil => exact ⟨by simp [onSections], by simpa using hkv⟩
  | cons e rest ih =>
    obtain ⟨y, u⟩ := e
    have hu := hA (y, u) List.mem_cons_self
    obtain ⟨ih₁, ih₂⟩ := ih fun e he ↦ hA e (List.mem_cons_of_mem _ he)
    rw [onSections_cons, mergeOne_cons, mergeOne_cons]
    by_cases hky : sameKey k y = true
    · have hsec := sectionOf?_congr hky
      have hkeys : ∀ n, sectionOf? y = some n → ∀ x ∈ dictKeys u ++ dictKeys v, x ∈ S n :=
        fun n hn x hx ↦ (List.mem_append.mp hx).elim (hu n hn x) (hkv n (hsec.trans hn) x)
      rw [if_pos hky, if_pos hky, onSections_cons, show onSection renameSection k =
        onSection renameSection y by unfold onSection; rw [hsec],
        mergeValue_onSection fun n hn ↦ (hS n).mono (hkeys n hn)]
      refine ⟨rfl, List.forall_mem_cons.mpr ⟨fun n hn x hx ↦ hkeys n hn x
        (dictKeys_mergeValue_subset hx), fun e he ↦ hA e (List.mem_cons_of_mem _ he)⟩⟩
    · rw [if_neg hky, if_neg hky, onSections_cons, ih₁]
      exact ⟨rfl, List.forall_mem_cons.mpr ⟨hu, ih₂⟩⟩

/-- Merging data with renamed sections renames the merge, when the keys of each section are
among keys spelled once. -/
theorem mergeEntries_onSections (hS : ∀ n, SpelledOnce (S n)) (hA : ∀ e ∈ A, WithinKeys S e)
    (hB : ∀ e ∈ B, WithinKeys S e) :
    mergeEntries (onSections renameSection A) (onSections renameSection B) =
      onSections renameSection (mergeEntries A B) := by
  induction B generalizing A with
  | nil => simp [onSections]
  | cons e rest ih =>
    obtain ⟨k, v⟩ := e
    obtain ⟨hmerge, hwithin⟩ := mergeOne_onSections hS hA (hB (k, v) List.mem_cons_self)
    rw [onSections_cons, mergeEntries_cons, mergeEntries_cons, hmerge]
    exact ih hwithin fun e he ↦ hB e (List.mem_cons_of_mem _ he)

theorem WithinKeys.mono {S S' : String → List Value} {e : Value × Value} (h : WithinKeys S e)
    (hsub : ∀ n, ∀ x ∈ S n, x ∈ S' n) : WithinKeys S' e :=
  fun n hn x hx ↦ hsub n x (h n hn x hx)

theorem withinKeys_sectionKeys (es : List (Value × Value)) :
    ∀ e ∈ es, WithinKeys (sectionKeys es) e := by
  intro e he n hn x hx
  exact List.mem_flatMap.mpr ⟨e, he, by simpa [hn] using hx⟩

theorem sectionKeys_of_not_mem {n : String} (hn : n ∉ namedSections)
    (es : List (Value × Value)) :
    sectionKeys es n = [] := by
  refine List.flatMap_eq_nil_iff.mpr fun e _ ↦ ?_
  rw [if_neg]
  intro h
  revert h
  unfold sectionOf?
  split
  · split
    · next hm => intro h; cases h; exact hn hm
    · simp
  · simp

end Merge

/-- Lower-casing the names of keyed data renames them, when each name is spelled once. -/
theorem lowerNames_of_spelledOnce {a : List (Value × Value)} (ha : Keyed (.dict a))
    (hspell : ∀ n, SpelledOnce (sectionKeys a n)) :
    lowerNames a = onSections renameSection a := by
  unfold lowerNames onSections onSection
  refine List.map_congr_left fun e he ↦ ?_
  rcases hn : sectionOf? e.1 with _ | n
  · rfl
  · simp only [Option.isSome_some, if_true]
    rw [lowerSection_of_spelledOnce (fun es hes ↦ (hes ▸ ha.values e he).distinctKeys)
      ((hspell n).mono (withinKeys_sectionKeys a e he n hn))]

/-! ## Reading renamed sections -/

section Read

/-- A section whose names are taken to small letters is read as the section itself, each
entry then named by the key it is filed under, for a reader that only stores the name. -/
theorem readSection_renameSection {α : Type}
    {f : String → Value → Except ModelError (Option α)}
    (setName : String → α → α)
    (hf : ∀ k v, f (Text.lowerString k) v = Option.map (setName (Text.lowerString k)) <$> f k v)
    (o : Option Value) :
    readSection f (o.map renameSection) = Table.mapWithKey setName <$> readSection f o := by
  rcases o with _ | v
  · rfl
  · cases v with
    | dict es =>
      simp only [Option.map_some, renameSection, readSection]
      refine foldlM_map_map (m := Except ModelError) (Table.mapWithKey setName)
        (fun e ↦ (lowerKey e.1, e.2)) ?_ es [] [] rfl
      intro t e
      obtain ⟨k, v⟩ := e
      cases k with
      | str s =>
        simp only [lowerKey, hf, Text.lowerString_lowerString, bind_map_left, map_bind]
        congr 1
        funext o
        cases o <;> simp [Table.insert_mapWithKey]
      | _ => rfl
    | _ => rfl

theorem Category.readEntry_rename (k k' : String) (v : Value) :
    Category.readEntry k' v = (fun c ↦ { c with name := k' }) <$> Category.readEntry k v := by
  cases v with
  | dict es =>
    simp only [Category.readEntry, map_bind]
    congr 1
    funext args
    split <;> simp
  | _ => simp [Category.readEntry]

theorem CategoryMap.readEntry?_rename (k k' : String) (v : Value) :
    CategoryMap.readEntry? k' v =
      Option.map (fun c ↦ { c with name := k' }) <$> CategoryMap.readEntry? k v := by
  cases v <;> simp [CategoryMap.readEntry?]

theorem Theme.readEntry?_rename (k k' : String) (v : Value) :
    Theme.readEntry? k' v =
      Option.map (fun c ↦ { c with name := k' }) <$> Theme.readEntry? k v := by
  cases v <;> simp [Theme.readEntry?]

theorem Program.readEntry?_rename (k k' : String) (v : Value) :
    Program.readEntry? k' v =
      Option.map (fun c ↦ { c with name := k' }) <$> Program.readEntry? k v := by
  cases v <;> simp [Program.readEntry?]

theorem find?_renamed_of_not_mem {t : Table Value} {k : String} (hk : k ∉ namedSections) :
    (t.mapWithKey fun j v ↦ onSection renameSection (.str j) v).find? k = t.find? k := by
  rw [Table.find?_mapWithKey]
  have : onSection renameSection (.str k) = id := by
    funext v
    simp [onSection, sectionOf?, hk]
  rw [this]
  simp

theorem find?_renamed_of_mem {t : Table Value} {k : String} (hk : k ∈ namedSections) :
    (t.mapWithKey fun j v ↦ onSection renameSection (.str j) v).find? k =
      (t.find? k).map renameSection := by
  rw [Table.find?_mapWithKey]
  have : onSection renameSection (.str k) = renameSection := by
    funext v
    simp [onSection, sectionOf?, hk]
  rw [this]

theorem withDefault_renamed {α : Type} (f : Value → Except ModelError α) {t : Table Value}
    {k : String} (hk : k ∉ namedSections) (d : α) :
    Field.withDefault f (t.mapWithKey fun j v ↦ onSection renameSection (.str j) v) k d =
      Field.withDefault f t k d := by
  simp only [Field.withDefault, find?_renamed_of_not_mem hk]

/-- Data whose named sections have their names in small letters is read as the data itself,
each entry of those sections then named by the key it is filed under. -/
theorem read_onSections_renameSection (M : List (Value × Value)) :
    Config.read (.dict (onSections renameSection M)) = nameByKey <$> Config.read (.dict M) := by
  unfold Config.read onSections
  simp only
  rw [foldlM_map_map (m := Except ModelError)
    (Table.mapWithKey fun j v ↦ onSection renameSection (.str j) v)
    (fun e ↦ (e.1, onSection renameSection e.1 e.2)) ?step M [] [] rfl, bind_map_left, map_bind]
  · congr 1
    funext args
    simp only [withDefault_renamed _ (by decide : "config" ∉ namedSections),
      withDefault_renamed _ (by decide : "flags" ∉ namedSections),
      withDefault_renamed _ (by decide : "keybindings" ∉ namedSections),
      withDefault_renamed _ (by decide : "aliases" ∉ namedSections),
      find?_renamed_of_mem (by decide : "categories" ∈ namedSections),
      find?_renamed_of_mem (by decide : "category_maps" ∈ namedSections),
      find?_renamed_of_mem (by decide : "themes" ∈ namedSections),
      find?_renamed_of_mem (by decide : "programs" ∈ namedSections)]
    rw [readSection_renameSection (fun k (c : Category) ↦ { c with name := k })
        (fun k v ↦ by simp [Category.readEntry_rename k (Text.lowerString k) v, Functor.map_map]),
      readSection_renameSection (fun k (c : CategoryMap) ↦ { c with name := k })
        (fun k v ↦ CategoryMap.readEntry?_rename k _ v),
      readSection_renameSection (fun k (c : Theme) ↦ { c with name := k })
        (fun k v ↦ Theme.readEntry?_rename k _ v),
      readSection_renameSection (fun k (c : Program) ↦ { c with name := k })
        (fun k v ↦ Program.readEntry?_rename k _ v)]
    simp only [bind_map_left, map_bind, map_pure]
    rfl
  · intro t e
    obtain ⟨k, v⟩ := e
    cases k with
    | str s => simp [Table.insert_mapWithKey]
    | _ => rfl

end Read

/-- Data merged after the names of its categories, category maps, themes and programs are
taken to small letters reads as the data merged as written, each entry of those sections then
named by the key it is filed under, when both sides are keyed and no name of a section is
spelled two ways across them. -/
theorem read_deepMerge_lowerNames {a b : List (Value × Value)} (ha : Keyed (.dict a))
    (hb : Keyed (.dict b))
    (hspell : ∀ n ∈ namedSections, SpelledOnce (sectionKeys a n ++ sectionKeys b n)) :
    Config.read (.dict (deepMerge (lowerNames a) (lowerNames b))) =
      nameByKey <$> Config.read (.dict (deepMerge a b)) := by
  have hS : ∀ n, SpelledOnce (sectionKeys a n ++ sectionKeys b n) := fun n ↦ by
    by_cases hn : n ∈ namedSections
    · exact hspell n hn
    · rw [sectionKeys_of_not_mem hn, sectionKeys_of_not_mem hn]
      intro x hx
      simp at hx
  rw [lowerNames_of_spelledOnce ha fun n ↦ (hS n).mono fun x ↦ List.mem_append_left _,
    lowerNames_of_spelledOnce hb fun n ↦ (hS n).mono fun x ↦ List.mem_append_right _,
    deepMerge, deepMerge,
    mergeEntries_onSections hS
      (fun e he ↦ (withinKeys_sectionKeys a e he).mono fun n x ↦ List.mem_append_left _)
      (fun e he ↦ (withinKeys_sectionKeys b e he).mono fun n x ↦ List.mem_append_right _),
    read_onSections_renameSection]

/-- A main file and a drop-in file that both spell the category `Opt` as written. -/
theorem read_deepMerge_lowerNames_dropin :
    Keyed (.dict [(.str "categories", .dict [(.str "Opt", .list [.str "red"])])]) ∧
      Keyed (.dict [(.str "categories", .dict [(.str "Opt", .list [.str "blue"])])]) ∧
      (∀ n ∈ namedSections,
        SpelledOnce (sectionKeys [(.str "categories", .dict [(.str "Opt", .list [.str "red"])])] n ++
          sectionKeys [(.str "categories", .dict [(.str "Opt", .list [.str "blue"])])] n)) ∧
      Config.read (.dict (deepMerge
          (lowerNames [(.str "categories", .dict [(.str "Opt", .list [.str "red"])])])
          (lowerNames [(.str "categories", .dict [(.str "Opt", .list [.str "blue"])])]))) =
        nameByKey <$> Config.read (.dict (deepMerge
          [(.str "categories", .dict [(.str "Opt", .list [.str "red"])])]
          [(.str "categories", .dict [(.str "Opt", .list [.str "blue"])])])) := by
  have keyed : ∀ c : String,
      Keyed (.dict [(.str "categories", .dict [(.str "Opt", .list [.str c])])]) := fun c ↦
    .dict (List.pairwise_singleton _ _) fun e he ↦ by
      rw [List.mem_singleton.mp he]
      exact Keyed.of_flat (List.pairwise_singleton _ _) fun e he _ ↦ by
        rw [List.mem_singleton.mp he]
        nofun
  have hspell : ∀ n ∈ namedSections,
      SpelledOnce (sectionKeys [(.str "categories", .dict [(.str "Opt", .list [.str "red"])])] n ++
        sectionKeys [(.str "categories", .dict [(.str "Opt", .list [.str "blue"])])] n) := by
    decide
  exact ⟨keyed "red", keyed "blue", hspell,
    read_deepMerge_lowerNames (keyed "red") (keyed "blue") hspell⟩

/-- A category that a drop-in file spells in small letters replaces the main file's entry
instead of merging with it, so that its colours are the drop-in's alone; with the names taken
to small letters first, the two lists of colours are joined. -/
theorem read_deepMerge_respelled :
    ((Config.read (.dict (deepMerge
        [(.str "categories", .dict [(.str "Opt", .list [.str "red"])])]
        [(.str "categories", .dict [(.str "opt", .list [.str "blue"])])]))).toOption.map
      fun c ↦ c.categories.map fun e ↦ (e.1, e.2.colors)) = some [("opt", [("0", "blue")])] ∧
    ((Config.read (.dict (deepMerge
        (lowerNames [(.str "categories", .dict [(.str "Opt", .list [.str "red"])])])
        (lowerNames [(.str "categories", .dict [(.str "opt", .list [.str "blue"])])])))).toOption.map
      fun c ↦ c.categories.map fun e ↦ (e.1, e.2.colors)) =
        some [("opt", [("0", "red"), ("1", "blue")])] := by
  have hkept : deepMerge [(.str "categories", .dict [(.str "Opt", .list [.str "red"])])]
      [(.str "categories", .dict [(.str "opt", .list [.str "blue"])])] =
      [(.str "categories",
        .dict [(.str "Opt", .list [.str "red"]), (.str "opt", .list [.str "blue"])])] := by
    simp [deepMerge, mergeEntries_cons, mergeOne_cons, sameKey, keyForm?]
  have hjoined : deepMerge [(.str "categories", .dict [(.str "opt", .list [.str "red"])])]
      [(.str "categories", .dict [(.str "opt", .list [.str "blue"])])] =
      [(.str "categories", .dict [(.str "opt", .list [.str "red", .str "blue"])])] := by
    simp [deepMerge, mergeEntries_cons, mergeOne_cons, sameKey, keyForm?]
  have hlower : lowerNames [(.str "categories", .dict [(.str "Opt", .list [.str "red"])])] =
      [(.str "categories", .dict [(.str "opt", .list [.str "red"])])] := rfl
  have hsmall : lowerNames [(.str "categories", .dict [(.str "opt", .list [.str "blue"])])] =
      [(.str "categories", .dict [(.str "opt", .list [.str "blue"])])] := rfl
  rw [hkept, hlower, hsmall, hjoined]
  exact ⟨by decide +kernel, by decide +kernel⟩

end Config

end FlagLine
