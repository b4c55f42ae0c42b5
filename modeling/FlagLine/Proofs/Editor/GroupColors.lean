import FlagLine.Editor.Lexer
/-!
# The colours of a word's captures

With the lights on and no duplicates shown, the lexer writes a word with captures as the
captures in order of where they start, each in a colour, with the text between them in the
class of the word's category. The colours come by position: the capture at position `j`
takes the `j`-th colour specification of the category, the last one repeating, or white
when there are none (`Color.specAt`). For a configured category those specifications are the
keys of its colour table, not the colours stored under them: a table read from a list has
the keys `"0"`, `"1"`, …, and one given by group names has those names, so a capture is
never coloured by the colour configured for it, and group names play no part. Main
statement: `Lexer.styleWord_colors_by_keys`.
-/

namespace FlagLine

/-- The colour specification that the capture at position `j` takes from a list of
specifications: the one at its position, the last one repeating, white when there are none. -/
def Color.specAt (specs : List String) (j : Nat) : String := specs.getD j (specs.getLastD "white")

/-- The captures of a word, in order of where they start. -/
def WordMatch.capturesByStart (w : WordMatch) : List Capture :=
  w.groups.mergeSort fun a b ↦ decide (a.start ≤ b.start)

/-- Pieces of a word in which the captures, in order of where they start, come one after
another, the capture at position `j` in the colour that `specs` give that position, and every
other piece is in the class of the word's category. -/
def ColorsCaptures (w : WordMatch) (specs : List String) (pieces : Styled) : Prop :=
  ∃ gaps : List Styled, ∃ tail : Styled, gaps.length = w.groups.length ∧
    (∀ p ∈ gaps.flatten ++ tail, p.1 = styleClass w.category) ∧
    pieces = (List.zipWith (fun gap (q : Capture × Nat) ↦
        gap ++ [((Color.parse (Color.specAt specs q.2)).style, q.1.value)])
      gaps w.capturesByStart.zipIdx).flatten ++ tail

/-- The colours of `n` captures: the one at each position below `n` is what its
specification names. -/
theorem Color.forGroups_getD (specs : List String) {n j : Nat} (hj : j < n) :
    (Color.forGroups specs n).getD (min j ((Color.forGroups specs n).length - 1)) {} =
      Color.parse (Color.specAt specs j) := by
  have hlen : (Color.forGroups specs n).length = n := by simp [Color.forGroups]
  rw [hlen, Nat.min_eq_left (by omega)]
  cases specs with
  | nil => rcases j with _ | j <;> simp [Color.forGroups, Color.specAt, hj]
  | cons s rest =>
    -- a list of colours ends where its specifications end, so past it the last one repeats
    have hlast : ((s :: rest).map Color.parse).getLastD {} =
        Color.parse ((s :: rest).getLastD "white") := by
      rw [List.map_cons, List.getLastD_cons, List.getLastD_cons, List.getLastD_map]
    have hcolors : (Color.forGroups (s :: rest) n).getD j {} =
        ((s :: rest).map Color.parse).getD j (((s :: rest).map Color.parse).getLastD {}) := by
      simp only [Color.forGroups, List.isEmpty_cons, Bool.false_eq_true, if_false]
      rw [List.getD_eq_getElem?_getD, List.getElem?_map, List.getElem?_range hj]
      rfl
    rw [hcolors, hlast, List.getD_eq_getElem?_getD, List.getElem?_map, Option.getD_map]
    rfl

namespace Lexer

/-- One capture written after the pieces so far, which end at position `acc.2` of the word:
the text before it in the category's class, then the capture in its colour. -/
def groupStep (value : String) (colors : List Color) (cls : String) (acc : Styled × Nat)
    (q : Capture × Nat) : Styled × Nat :=
  let before : Styled := if q.1.start > acc.2 then [(cls, slice value acc.2 q.1.start)] else []
  (acc.1 ++ before ++ [((colors.getD (min q.2 (colors.length - 1)) {}).style, q.1.value)], q.1.stop)

/-- A word is styled by writing its captures one after another, then the text after the
last in the category's class. -/
theorem styleGroups_eq_foldl (value : String) (groups : List Capture) (colors : List Color)
    (category : String) :
    styleGroups value groups colors category =
      let acc := (groups.mergeSort fun a b ↦ decide (a.start ≤ b.start)).zipIdx.foldl
        (groupStep value colors (styleClass category)) ([], 0)
      if acc.2 < value.length then acc.1 ++ [(styleClass category, slice value acc.2 value.length)]
      else acc.1 :=
  rfl

/-- Writing captures one after another gives, for each, pieces in the class `cls` and then
the capture in its colour. -/
theorem foldl_groupStep (value : String) (colors : List Color) (cls : String) (col : Nat → Color)
    (L : List (Capture × Nat)) (hcol : ∀ q ∈ L, colors.getD (min q.2 (colors.length - 1)) {} = col q.2)
    (acc : Styled × Nat) :
    ∃ gaps : List Styled, gaps.length = L.length ∧ (∀ p ∈ gaps.flatten, p.1 = cls) ∧
      (L.foldl (groupStep value colors cls) acc).1 =
        acc.1 ++ (List.zipWith (fun gap (q : Capture × Nat) ↦ gap ++ [((col q.2).style, q.1.value)])
          gaps L).flatten := by
  induction L generalizing acc with
  | nil => exact ⟨[], rfl, by simp, by simp⟩
  | cons q L ih =>
    obtain ⟨gaps, hlen, hcls, hfold⟩ := ih (fun q' hq' ↦ hcol q' (List.mem_cons_of_mem q hq'))
      (groupStep value colors cls acc q)
    let before : Styled := if q.1.start > acc.2 then [(cls, slice value acc.2 q.1.start)] else []
    have hbefore : ∀ p ∈ before, p.1 = cls := by
      intro p hp
      by_cases h : q.1.start > acc.2 <;> simp_all [before]
    refine ⟨before :: gaps, by simp [hlen], ?_, ?_⟩
    · intro p hp
      rcases List.mem_append.1 (List.flatten_cons ▸ hp) with hp | hp
      · exact hbefore p hp
      · exact hcls p hp
    · rw [List.foldl_cons, hfold, List.zipWith_cons_cons, List.flatten_cons]
      simp only [groupStep, hcol q List.mem_cons_self, List.append_assoc]
      rfl

variable (lx : Lexer) {w : WordMatch}

/-- The colour specifications of a configured category are the keys of its colour table. -/
theorem categoryColors_of_find {category : String} {cat : Category}
    (hcat : lx.config.categories.find? (Text.lowerString category) = some cat) :
    lx.categoryColors category = cat.colors.keys := by
  simp [categoryColors, hcat, Table.keys]

/-- A lit word with captures is styled by its captures in the colours of its category. -/
theorem styleWord_lit (i : Nat) (hlit : lx.dims w.category = false) (hgroups : w.groups ≠ []) :
    lx.styleWord none i w = styleGroups w.token.value w.groups
      (Color.forGroups (lx.categoryColors w.category) w.groups.length) w.category := by
  have hne : w.groups.isEmpty = false := by
    cases h : w.groups with
    | nil => exact absurd h hgroups
    | cons _ _ => rfl
  simp [styleWord, hlit, hne]

/-- With the lights on and no duplicates shown, a word with captures whose category is
configured is written as its captures in order of where they start, with the text between
them in the category's class, the capture at position `j` in the colour named by the `j`-th
key of the category's colour table, the last key repeating, or white when the table is
empty. The colours stored under the keys, and the names of the groups, are not read. -/
theorem styleWord_colors_by_keys (i : Nat) {cat : Category} (hlit : lx.dims w.category = false)
    (hgroups : w.groups ≠ [])
    (hcat : lx.config.categories.find? (Text.lowerString w.category) = some cat) :
    ColorsCaptures w cat.colors.keys (lx.styleWord none i w) := by
  rw [lx.styleWord_lit i hlit hgroups, lx.categoryColors_of_find hcat, styleGroups_eq_foldl]
  have hcol : ∀ q ∈ w.capturesByStart.zipIdx,
      (Color.forGroups cat.colors.keys w.groups.length).getD
          (min q.2 ((Color.forGroups cat.colors.keys w.groups.length).length - 1)) {} =
        Color.parse (Color.specAt cat.colors.keys q.2) := by
    intro q hq
    have hlt : q.2 < w.capturesByStart.length := by
      have := (List.mem_zipIdx hq).2.1
      omega
    rw [WordMatch.capturesByStart, List.length_mergeSort] at hlt
    exact Color.forGroups_getD _ hlt
  obtain ⟨gaps, hlen, hcls, hfold⟩ := foldl_groupStep w.token.value _ (styleClass w.category)
    (fun j ↦ Color.parse (Color.specAt cat.colors.keys j)) _ hcol ([], 0)
  dsimp only
  rw [show (w.groups.mergeSort fun a b ↦ decide (a.start ≤ b.start)) = w.capturesByStart from rfl]
  generalize w.capturesByStart.zipIdx.foldl
    (groupStep w.token.value (Color.forGroups cat.colors.keys w.groups.length)
      (styleClass w.category)) ([], 0) = acc at hfold ⊢
  let tail : Styled := if acc.2 < w.token.value.length then
      [(styleClass w.category, slice w.token.value acc.2 w.token.value.length)] else []
  refine ⟨gaps, tail, by simpa [WordMatch.capturesByStart] using hlen, ?_, ?_⟩
  · intro p hp
    rcases List.mem_append.1 hp with hp | hp
    · exact hcls p hp
    · by_cases h : acc.2 < w.token.value.length <;> simp_all [tail]
  · rw [List.nil_append] at hfold
    rw [hfold]
    by_cases h : acc.2 < w.token.value.length
    · simp only [tail, if_pos h]
    · simp only [tail, if_neg h, List.append_nil]

end Lexer

/-- The lexer of a configuration with a category `Opt` whose colours were listed as `[red]`,
so that its colour table is `{"0": "red"}`. -/
def redOptLexer : Lexer :=
  { (default : Lexer) with
    config := { categories := [("opt", { name := "Opt", colors := [("0", "red")] })] }
    lightsOff := false }

/-- The word `-O` of `gcc -O`, captured whole in the category `Opt`. -/
def optWord : WordMatch :=
  { token := { value := "-O", start := 4, stop := 6, raw := "-O" }, category := "Opt",
    groups := [{ value := "-O", start := 0, stop := 2, index := 1 }], matched := true }

/-- The capture of `-O` is written in the colour that the key `"0"` names, not in red. -/
theorem styleWord_colors_by_keys_redOpt :
    redOptLexer.dims optWord.category = false ∧ optWord.groups ≠ [] ∧
      redOptLexer.config.categories.find? (Text.lowerString optWord.category) =
        some { name := "Opt", colors := [("0", "red")] } ∧
      ColorsCaptures optWord ["0"] (redOptLexer.styleWord none 1 optWord) := by
  have hlit : redOptLexer.dims optWord.category = false := rfl
  have hgroups : optWord.groups ≠ [] := List.cons_ne_nil _ _
  have hlower : Text.lowerString "Opt" = "opt" := by decide
  have hcat : redOptLexer.config.categories.find? (Text.lowerString optWord.category) =
      some { name := "Opt", colors := [("0", "red")] } := by
    show Table.find? [("opt", _)] (Text.lowerString "Opt") = _
    rw [hlower]
    rfl
  exact ⟨hlit, hgroups, hcat,
    @Lexer.styleWord_colors_by_keys redOptLexer optWord 1 { name := "Opt", colors := [("0", "red")] }
      hlit hgroups hcat⟩

end FlagLine
