import FlagLine.Config.Lookup
/-!
# Expanding category maps by levels

A category map expands to the categories it lists, each expanded by one level less, until
no level is left; a name that is no map stands for itself. The expansion runs through at
most a given depth of nested maps and fails when it needs more. More depth never changes a
finished expansion (`expandWithin_mono`), and an expansion by `n` levels nests at most
`n + 1` maps deep, so it finishes whenever `n` is below the depth
(`expandWithin_levels_finish`). Expanding by `a + b` levels, when it finishes, is expanding
by `a` levels and then each category found by `b` levels (`expandWithin_add_levels`). The
converse fails only for want of depth: a map that lists itself runs out of depth at 1800
levels, while 900 levels twice give it back. Main statement:
`Config.expandCategory_add_levels`.
-/

namespace FlagLine.Config

/-! ## Expansions of lists of names -/

section FlatMap

variable {α β γ ε : Type} {f g : α → Except ε (List β)} {l l₁ l₂ : List α} {L : List β}

theorem flatMapM_cons_eq_ok {a : α} :
    (a :: l).flatMapM f = .ok L ↔
      ∃ La Ll, f a = .ok La ∧ l.flatMapM f = .ok Ll ∧ L = La ++ Ll := by
  rw [List.flatMapM_cons]
  cases f a with
  | error e => simp [bind, Except.bind]
  | ok La =>
    cases l.flatMapM f with
    | error e => simp [bind, Except.bind]
    | ok Ll => simp [bind, Except.bind, pure, Except.pure, eq_comm]

theorem flatMapM_singleton_of_ok {a : α} (h : f a = .ok L) : [a].flatMapM f = .ok L :=
  flatMapM_cons_eq_ok.2 ⟨L, [], h, rfl, (List.append_nil L).symm⟩

theorem flatMapM_append_of_ok {L₁ L₂ : List β} (h₁ : l₁.flatMapM f = .ok L₁)
    (h₂ : l₂.flatMapM f = .ok L₂) : (l₁ ++ l₂).flatMapM f = .ok (L₁ ++ L₂) := by
  induction l₁ generalizing L₁ with
  | nil =>
    cases h₁
    exact h₂
  | cons a l₁ ih =>
    obtain ⟨La, Ll, ha, hl, rfl⟩ := flatMapM_cons_eq_ok.1 h₁
    exact flatMapM_cons_eq_ok.2 ⟨La, Ll ++ L₂, ha, ih hl, List.append_assoc ..⟩

theorem flatMapM_ok_of_forall (h : ∀ a ∈ l, ∃ La, f a = .ok La) : ∃ L, l.flatMapM f = .ok L := by
  induction l with
  | nil => exact ⟨[], rfl⟩
  | cons a l ih =>
    obtain ⟨La, ha⟩ := h a List.mem_cons_self
    obtain ⟨Ll, hl⟩ := ih fun b hb ↦ h b (List.mem_cons_of_mem a hb)
    exact ⟨La ++ Ll, flatMapM_cons_eq_ok.2 ⟨La, Ll, ha, hl, rfl⟩⟩

/-- Expanding each name another way that keeps every finished result keeps the result of
the list. -/
theorem flatMapM_ok_imp (hfg : ∀ a ∈ l, ∀ La, f a = .ok La → g a = .ok La)
    (h : l.flatMapM f = .ok L) : l.flatMapM g = .ok L := by
  induction l generalizing L with
  | nil => exact h
  | cons a l ih =>
    obtain ⟨La, Ll, ha, hl, rfl⟩ := flatMapM_cons_eq_ok.1 h
    exact flatMapM_cons_eq_ok.2 ⟨La, Ll, hfg a List.mem_cons_self La ha,
      ih (fun b hb ↦ hfg b (List.mem_cons_of_mem a hb)) hl, rfl⟩

/-- When each name's result is a second expansion of a first one, so is the list's: the
first expansions concatenate, and the second expansion of the concatenation concatenates
the second expansions. -/
theorem flatMapM_ok_bind {h : β → Except ε (List γ)} {G : List γ}
    {f : α → Except ε (List γ)} {g : α → Except ε (List β)}
    (hstep : ∀ a ∈ l, ∀ Ga, f a = .ok Ga → ∃ La, g a = .ok La ∧ La.flatMapM h = .ok Ga)
    (hl : l.flatMapM f = .ok G) : ∃ L, l.flatMapM g = .ok L ∧ L.flatMapM h = .ok G := by
  induction l generalizing G with
  | nil =>
    cases hl
    exact ⟨[], rfl, rfl⟩
  | cons a l ih =>
    obtain ⟨Ga, Gl, ha, hrest, rfl⟩ := flatMapM_cons_eq_ok.1 hl
    obtain ⟨La, hga, hLa⟩ := hstep a List.mem_cons_self Ga ha
    obtain ⟨Ll, hgl, hLl⟩ := ih (fun b hb ↦ hstep b (List.mem_cons_of_mem a hb)) hrest
    exact ⟨La ++ Ll, flatMapM_cons_eq_ok.2 ⟨La, Ll, hga, hgl, rfl⟩, flatMapM_append_of_ok hLa hLl⟩

end FlatMap

/-! ## One step of the expansion -/

section Step

variable {c : Config} {d : Nat} {x : String} {level : Option Int} {m : CategoryMap}

theorem expandWithin_zero (c : Config) (x : String) (level : Option Int) :
    c.expandWithin 0 x level = .error () := rfl

theorem expandWithin_zero_ne_ok {L : List String} : c.expandWithin 0 x level ≠ .ok L :=
  nofun

theorem expandWithin_leaf (hm : c.categoryMaps.find? (Text.lowerString x) = none) :
    c.expandWithin (d + 1) x level = .ok [x] := by
  simp [expandWithin, hm]

theorem expandWithin_stop (hm : c.categoryMaps.find? (Text.lowerString x) = some m) :
    c.expandWithin (d + 1) x (some 0) = .ok [x] := by
  simp [expandWithin, hm]

/-- A map with a level left expands to its categories, each by one level less. -/
theorem expandWithin_map (hm : c.categoryMaps.find? (Text.lowerString x) = some m)
    (hl : level ≠ some 0) :
    c.expandWithin (d + 1) x level =
      m.categories.flatMapM (fun y ↦ c.expandWithin d y (level.map (· - 1))) := by
  simp [expandWithin, hm, hl]

theorem level_succ_ne_zero (n : Nat) : some ((n + 1 : Nat) : Int) ≠ some 0 := by
  simp only [ne_eq, Option.some.injEq]
  omega

theorem level_succ_pred (n : Nat) : (some ((n + 1 : Nat) : Int)).map (· - 1) = some (n : Int) := by
  simp

end Step

/-! ## Depth -/

section Depth

variable {c : Config} {d d' : Nat} {x : String} {level : Option Int} {L : List String}

theorem expandWithin_succ (h : c.expandWithin d x level = .ok L) :
    c.expandWithin (d + 1) x level = .ok L := by
  induction d generalizing x level L with
  | zero => exact absurd h expandWithin_zero_ne_ok
  | succ d ih =>
    cases hm : c.categoryMaps.find? (Text.lowerString x) with
    | none => rwa [expandWithin_leaf hm] at h ⊢
    | some m =>
      by_cases hl : level = some 0
      · subst hl
        rwa [expandWithin_stop hm] at h ⊢
      · rw [expandWithin_map hm hl] at h ⊢
        exact flatMapM_ok_imp (fun y _ Ly hy ↦ ih hy) h

theorem expandWithin_mono (hd : d ≤ d') (h : c.expandWithin d x level = .ok L) :
    c.expandWithin d' x level = .ok L := by
  induction hd with
  | refl => exact h
  | step _ ih => exact expandWithin_succ ih

/-- An expansion by `n` levels nests at most `n + 1` maps, so it finishes within any larger
depth. -/
theorem expandWithin_levels_finish {n : Nat} (x : String) (h : n < d) :
    ∃ L, c.expandWithin d x (some (n : Int)) = .ok L := by
  induction d generalizing x n with
  | zero => omega
  | succ d ih =>
    cases hm : c.categoryMaps.find? (Text.lowerString x) with
    | none => exact ⟨[x], expandWithin_leaf hm⟩
    | some m =>
      cases n with
      | zero => exact ⟨[x], expandWithin_stop hm⟩
      | succ n =>
        rw [expandWithin_map hm (level_succ_ne_zero n), level_succ_pred]
        exact flatMapM_ok_of_forall fun y _ ↦ ih y (by omega)

end Depth

/-! ## Levels add up -/

section Levels

variable {c : Config} {d : Nat} {x : String} {L : List String}

/-- Expanding by `a + b` levels is expanding by `a` levels and then each category found by
`b` levels, within the same depth. The induction is on the depth; at a map with levels left
each listed category takes one level off `a`. -/
theorem expandWithin_add_levels {a b : Nat}
    (h : c.expandWithin d x (some ((a + b : Nat) : Int)) = .ok L) :
    ∃ L₁, c.expandWithin d x (some (a : Int)) = .ok L₁ ∧
      L₁.flatMapM (fun y ↦ c.expandWithin d y (some (b : Int))) = .ok L := by
  induction d generalizing x a L with
  | zero => exact absurd h expandWithin_zero_ne_ok
  | succ d ih =>
    cases hm : c.categoryMaps.find? (Text.lowerString x) with
    | none =>
      rw [expandWithin_leaf hm] at h
      cases h
      exact ⟨[x], expandWithin_leaf hm, flatMapM_singleton_of_ok (expandWithin_leaf hm)⟩
    | some m =>
      cases a with
      | zero =>
        rw [Nat.zero_add] at h
        exact ⟨[x], expandWithin_stop hm, flatMapM_singleton_of_ok h⟩
      | succ a =>
        rw [Nat.succ_add, expandWithin_map hm (level_succ_ne_zero _), level_succ_pred] at h
        rw [expandWithin_map hm (level_succ_ne_zero a), level_succ_pred]
        refine flatMapM_ok_bind (fun y _ Ly hy ↦ ?_) h
        obtain ⟨L₁, hL₁, hsplit⟩ := ih hy
        exact ⟨L₁, hL₁, flatMapM_ok_imp (fun z _ Lz hz ↦ expandWithin_succ hz) hsplit⟩

/-- A map that lists only itself stands for itself at every level that the depth allows,
and runs out of depth at any other. -/
theorem expandWithin_self_listing {m : CategoryMap}
    (hm : c.categoryMaps.find? (Text.lowerString x) = some m) (hself : m.categories = [x])
    (n : Nat) :
    c.expandWithin d x (some (n : Int)) = if n < d then .ok [x] else .error () := by
  induction d generalizing n with
  | zero => rfl
  | succ d ih =>
    cases n with
    | zero => simp [expandWithin_stop hm]
    | succ n =>
      rw [expandWithin_map hm (level_succ_ne_zero n), level_succ_pred, hself, List.flatMapM_cons,
        ih n]
      by_cases hn : n < d
      · simp [hn, bind, Except.bind, pure, Except.pure]
      · simp [hn, bind, Except.bind]

end Levels

/-- Expanding a category by `a + b` levels, when it finishes within the editor's depth
(always so when `a + b` is below it), is expanding it by `a` levels and then each category
found by `b` levels. -/
theorem expandCategory_add_levels (c : Config) (x : String) (a b : Nat) :
    (a + b < expansionDepth → ∃ L, c.expandCategory x (some ((a + b : Nat) : Int)) = .ok L) ∧
      ∀ L, c.expandCategory x (some ((a + b : Nat) : Int)) = .ok L →
        ∃ L₁, c.expandCategory x (some (a : Int)) = .ok L₁ ∧
          L₁.flatMapM (fun y ↦ c.expandCategory y (some (b : Int))) = .ok L :=
  ⟨expandWithin_levels_finish x, fun _ h ↦ expandWithin_add_levels h⟩

def selfListing : Config := { categoryMaps := [("cyc", { name := "cyc", categories := ["cyc"] })] }

theorem selfListing_find : selfListing.categoryMaps.find? (Text.lowerString "cyc") =
    some { name := "cyc", categories := ["cyc"] } := by
  have hlower : Text.lowerString "cyc" = "cyc" := by decide
  simp [selfListing, hlower, Table.find?]

/-- Expanding the self-listing map by 900 + 900 levels runs out of depth, while expanding it
by 900 levels and the result by 900 more gives the map back. -/
theorem expandCategory_add_levels_runs_out :
    selfListing.expandCategory "cyc" (some ((900 + 900 : Nat) : Int)) = .error () ∧
      ∃ L₁, selfListing.expandCategory "cyc" (some ((900 : Nat) : Int)) = .ok L₁ ∧
        L₁.flatMapM (fun y ↦ selfListing.expandCategory y (some ((900 : Nat) : Int))) =
          .ok ["cyc"] := by
  have hrun (n : Nat) : selfListing.expandCategory "cyc" (some (n : Int)) =
      if n < expansionDepth then .ok ["cyc"] else .error () :=
    expandWithin_self_listing selfListing_find rfl n
  refine ⟨?_, ["cyc"], ?_, flatMapM_singleton_of_ok ?_⟩
  · rw [hrun, if_neg (by decide)]
  · rw [hrun, if_pos (by decide)]
  · rw [hrun, if_pos (by decide)]

end FlagLine.Config
