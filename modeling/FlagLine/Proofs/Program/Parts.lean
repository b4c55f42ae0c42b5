import FlagLine.Program.Detect
/-!
# The parts of a command line

A command line splits into the launcher, the launcher's parameters, the program and the
program's parameters, each with the range of words it covers. Main statement:
`splitCommandLine_parts_tile`. Once a program is found, the parts whose range is not
empty follow one another without gap or overlap from the last launcher, or from the
program when no launcher comes first, to the end of the line; each part is the values of
its words joined by spaces, so the parts joined by spaces are the values of those words.
A chain of launchers keeps only its last one: the words before it lie in no part
(`splitCommandLine_chain_drops_first_launcher`), and the line starts with a launcher
whenever any word is left out.
-/

namespace FlagLine

/-- Ranges of words that follow one another without gap or overlap from word `a` to word
`b`, none of them empty. -/
inductive Tiles : Nat → Nat → List (Nat × Nat) → Prop where
  | nil (a : Nat) : Tiles a a []
  | cons {a m b : Nat} {rs : List (Nat × Nat)} : a < m → Tiles m b rs → Tiles a b ((a, m) :: rs)

/-- Whether a range of words holds the word at a position. -/
def Covers (k : Nat) (r : Nat × Nat) : Bool := decide (r.1 ≤ k ∧ k < r.2)

namespace Tiles

theorem le {a b : Nat} {rs : List (Nat × Nat)} (h : Tiles a b rs) : a ≤ b := by
  induction h with
  | nil => exact Nat.le_refl _
  | cons ham _ ih => omega

/-- Ranges that tile from `a` to `b` hold each word between them exactly once, and no
other word. -/
theorem countP_covers {a b : Nat} {rs : List (Nat × Nat)} (h : Tiles a b rs) (k : Nat) :
    rs.countP (Covers k) = if a ≤ k ∧ k < b then 1 else 0 := by
  induction h with
  | nil => simp
  | @cons a m b rs ham hrest ih =>
    have hmb := hrest.le
    rw [List.countP_cons, ih]
    by_cases hk : k < m
    · have hkb : k < b := by omega
      by_cases hak : a ≤ k <;> simp [Covers, hk, hak, hkb]
    · have hmk : m ≤ k := by omega
      have hak : a ≤ k := by omega
      by_cases hkb : k < b <;> simp [Covers, hk, hkb, hak, hmk]

end Tiles

/-! ## Words joined by spaces -/

/-- The values of the words from `a` up to `b`, joined by spaces, are those up to `m`
and those from `m` on, with a space between. -/
theorem joinValues_split (tokens : List Token) {a m b : Nat} (ham : a < m) (hmb : m < b)
    (hb : b ≤ tokens.length) :
    joinValues tokens a b = joinValues tokens a m ++ " " ++ joinValues tokens m b := by
  have htake : (tokens.drop a).take (b - a) =
      (tokens.drop a).take (m - a) ++ (tokens.drop m).take (b - m) := by
    have hsum : b - a = (m - a) + (b - m) := by omega
    rw [hsum, List.take_add, List.drop_drop, Nat.add_sub_cancel' (Nat.le_of_lt ham)]
  unfold joinValues
  rw [htake, List.map_append]
  apply String.intercalate_append_of_ne_nil <;> simp <;> omega

/-- Ranges that tile from `a` to `b` within the line, each written as its words' values
joined by spaces and then joined by spaces in turn, give the values from `a` to `b`. -/
theorem Tiles.intercalate_joinValues {tokens : List Token} {a b : Nat} {rs : List (Nat × Nat)}
    (h : Tiles a b rs) (hb : b ≤ tokens.length) :
    " ".intercalate (rs.map fun r ↦ joinValues tokens r.1 r.2) = joinValues tokens a b := by
  induction h with
  | nil a => simp [joinValues]
  | @cons a m b rs ham hrest ih =>
    cases hrest with
    | nil => simp
    | @cons _ m' _ rs' hmm' hrest' =>
      have hm'b := hrest'.le
      simp only [List.map_cons, String.intercalate_cons_cons] at ih ⊢
      rw [ih hb, joinValues_split tokens ham (by omega) hb]

/-! ## Pieces cut at points -/

/-- The words between a start and each cut point in turn, as pieces: the values joined by
spaces with their range, leaving out the ranges that are empty. -/
def cutPieces (tokens : List Token) : Nat → List Nat → List (String × Nat × Nat)
  | _, [] => []
  | a, b :: rest =>
    (if a < b then [(joinValues tokens a b, a, b)] else []) ++ cutPieces tokens b rest

/-- Pieces cut at ascending points tile from the start to the last point. -/
theorem cutPieces_tiles (tokens : List Token) {a : Nat} {cuts : List Nat}
    (hsorted : (a :: cuts).Pairwise (· ≤ ·)) :
    Tiles a (cuts.getLastD a) ((cutPieces tokens a cuts).map Prod.snd) := by
  induction cuts generalizing a with
  | nil => exact Tiles.nil a
  | cons b rest ih =>
    obtain ⟨hab, hrest⟩ := List.pairwise_cons.mp hsorted
    have htail := ih hrest
    rw [List.getLastD_cons]
    by_cases hlt : a < b
    · simpa [cutPieces, hlt] using Tiles.cons hlt htail
    · have hba : b = a := by have := hab b (by simp); omega
      subst hba
      simpa [cutPieces] using htail

/-- Every piece is the values of the words in its range, joined by spaces. -/
theorem mem_cutPieces {tokens : List Token} {a : Nat} {cuts : List Nat} {x : String × Nat × Nat}
    (hx : x ∈ cutPieces tokens a cuts) : x.1 = joinValues tokens x.2.1 x.2.2 := by
  induction cuts generalizing a with
  | nil => cases hx
  | cons b rest ih =>
    simp only [cutPieces, List.mem_append] at hx
    rcases hx with hx | hx
    · split at hx
      · simp only [List.mem_singleton] at hx
        subst hx
        rfl
      · cases hx
    · exact ih hx

/-! ## Where the program is found -/

/-- Where a program found from word `i` on sits: within the words, either at `i` with the
launcher passed in, or right after the flags of the last launcher found, which starts at
or after `i`. -/
theorem findProgramFrom_found {c : Config} {fuel : Nat} {toks : List Token} {i : Nat}
    {L : Option LauncherSpan} {pm : ProgramMatch}
    (h : findProgramFrom c fuel toks i L = .ok (some pm)) :
    i ≤ pm.tokenIndex ∧ pm.tokenIndex < i + toks.length ∧
      ((pm.launcher = L ∧ pm.tokenIndex = i) ∨
        ∃ l, pm.launcher = some l ∧ i ≤ l.tokenIndex ∧ l.tokenIndex < l.argsEnd ∧
          l.argsEnd = pm.tokenIndex ∧
          ∃ t ∈ toks.head?, (isLauncher (Path.basename t.value)).isSome) := by
  fun_induction findProgramFrom c fuel toks i L with
  | case1 => cases h
  | case2 => cases h
  | case3 fuel t rest i L l hl n ih =>
    obtain ⟨hlo, hhi, hl'⟩ := ih h
    have hdrop : (rest.drop n).length = rest.length - n := List.length_drop
    have hhead : ∃ t' ∈ (t :: rest).head?, (isLauncher (Path.basename t'.value)).isSome :=
      ⟨t, rfl, by simp [hl]⟩
    refine ⟨by omega, by simp; omega, .inr ?_⟩
    rcases hl' with ⟨hL, hi⟩ | ⟨l', hl', hle, hlt, hend, -⟩
    · exact ⟨_, hL, Nat.le_refl _, by simp; omega, by simp [hi], hhead⟩
    · exact ⟨l', hl', by omega, hlt, hend, hhead⟩
  | case4 t rest i L _ m _ =>
    cases h
    exact ⟨Nat.le_refl _, by simp, .inl ⟨rfl, rfl⟩⟩
  | case5 => cases h

/-- The first word that the parts of a command line account for: the last launcher's, or
the program's when no launcher comes before it. -/
def ProgramMatch.lineStart (pm : ProgramMatch) : Nat :=
  match pm.launcher with
  | some l => l.tokenIndex
  | none => pm.tokenIndex

/-- The points where the parts of a line of `n` words begin and end: the launcher, its
parameters, the program and the program's parameters. -/
def ProgramMatch.cuts (pm : ProgramMatch) (n : Nat) : List Nat :=
  match pm.launcher with
  | some l => [l.tokenIndex + 1, pm.tokenIndex, pm.tokenIndex + 1, n]
  | none => [pm.tokenIndex + 1, n]

/-- The parts of a command line with their ranges, leaving out those whose range is
empty. -/
def CommandParts.pieces (p : CommandParts) : List (String × Nat × Nat) :=
  [(p.launcher, p.launcherRange), (p.launcherParameters, p.launcherParametersRange),
   (p.program, p.programRange), (p.programParameters, p.programParametersRange)].filter
    (fun x ↦ x.2.1 < x.2.2)

theorem joinValues_succ (tokens : List Token) {k : Nat} (hk : k < tokens.length) :
    joinValues tokens k (k + 1) = (tokens.getD k default).value := by
  simp [joinValues, List.take_one, List.head?_drop, hk]

/-- The parts of a line whose program is found are the words cut at its points. -/
theorem splitCommandLine_pieces {tokens : List Token} {c : Config} {pm : ProgramMatch}
    (hfound : findProgram tokens c = .ok (some pm)) :
    ∃ parts, splitCommandLine tokens c = .ok parts ∧
      parts.pieces = cutPieces tokens pm.lineStart (pm.cuts tokens.length) := by
  obtain ⟨-, hlen, hwhere⟩ := findProgramFrom_found hfound
  simp only [Nat.zero_add] at hlen
  simp only [splitCommandLine, hfound, bind, Except.bind, pure, Except.pure]
  rcases hwhere with ⟨hL, hi⟩ | ⟨l, hl, -, hlt, hend, -⟩
  · by_cases hmore : pm.tokenIndex + 1 < tokens.length <;>
      simp [hL, hmore, CommandParts.pieces, cutPieces, ProgramMatch.lineStart, ProgramMatch.cuts,
        joinValues_succ tokens hlen]
  · have hlaunch : l.tokenIndex < tokens.length := by omega
    by_cases hparams : l.tokenIndex + 1 < pm.tokenIndex <;>
      by_cases hmore : pm.tokenIndex + 1 < tokens.length <;>
      simp [hl, hend, hmore, hparams, CommandParts.pieces, cutPieces, ProgramMatch.lineStart,
        ProgramMatch.cuts, joinValues_succ tokens hlen, joinValues_succ tokens hlaunch]

/-- Once a program is found, the parts of the line whose range is not empty follow one
another from the last launcher, or from the program when no launcher comes first, to the
end of the line, so that each of these words is in exactly one part; each part is the
values of its words joined by spaces, and so are the parts joined by spaces. Words are
left out only when the line starts with a launcher. -/
theorem splitCommandLine_parts_tile {tokens : List Token} {c : Config} {pm : ProgramMatch}
    (hfound : findProgram tokens c = .ok (some pm)) :
    ∃ parts, splitCommandLine tokens c = .ok parts ∧
      Tiles pm.lineStart tokens.length (parts.pieces.map Prod.snd) ∧
      (∀ k, (parts.pieces.map Prod.snd).countP (Covers k) =
        if pm.lineStart ≤ k ∧ k < tokens.length then 1 else 0) ∧
      (∀ x ∈ parts.pieces, x.1 = joinValues tokens x.2.1 x.2.2) ∧
      " ".intercalate (parts.pieces.map Prod.fst) = joinValues tokens pm.lineStart tokens.length ∧
      (0 < pm.lineStart → ∃ t ∈ tokens.head?, (isLauncher (Path.basename t.value)).isSome) := by
  obtain ⟨parts, hsplit, hpieces⟩ := splitCommandLine_pieces hfound
  obtain ⟨-, hlen, hwhere⟩ := findProgramFrom_found hfound
  simp only [Nat.zero_add] at hlen
  have hsorted : (pm.lineStart :: pm.cuts tokens.length).Pairwise (· ≤ ·) := by
    rcases hwhere with ⟨hL, hi⟩ | ⟨l, hl, -, hlt, hend, -⟩
    · simp only [ProgramMatch.lineStart, ProgramMatch.cuts, hL]
      simp [List.pairwise_cons]
      omega
    · simp only [ProgramMatch.lineStart, ProgramMatch.cuts, hl]
      simp [List.pairwise_cons]
      omega
  have hlast : (pm.cuts tokens.length).getLastD pm.lineStart = tokens.length := by
    unfold ProgramMatch.cuts
    split <;> rfl
  have htiles := cutPieces_tiles tokens hsorted
  rw [hlast, ← hpieces] at htiles
  have hvalues : ∀ x ∈ parts.pieces, x.1 = joinValues tokens x.2.1 x.2.2 := by
    rw [hpieces]
    exact fun x hx ↦ mem_cutPieces hx
  refine ⟨parts, hsplit, htiles, htiles.countP_covers, hvalues, ?_, ?_⟩
  · have hfst : parts.pieces.map Prod.fst =
        (parts.pieces.map Prod.snd).map fun r ↦ joinValues tokens r.1 r.2 := by
      rw [List.map_map]
      exact List.map_congr_left hvalues
    rw [hfst, htiles.intercalate_joinValues (Nat.le_refl _)]
  · intro hpos
    rcases hwhere with ⟨hL, hi⟩ | ⟨l, -, -, -, -, hhead⟩
    · simp [ProgramMatch.lineStart, hL, hi] at hpos
    · exact hhead

/-- The words of `ccache distcc gcc`: two launchers, then the program. -/
def launcherChainLine : List Token :=
  [⟨"ccache", 0, 6, .none, "ccache"⟩, ⟨"distcc", 7, 13, .none, "distcc"⟩,
    ⟨"gcc", 14, 17, .none, "gcc"⟩]

/-- On `ccache distcc gcc` the parts tile the line from the second launcher on, and the
word before them is a launcher. -/
theorem splitCommandLine_chain_tiles :
    ∃ pm, findProgram launcherChainLine {} = .ok (some pm) ∧ pm.lineStart = 1 ∧
      ∃ parts, splitCommandLine launcherChainLine {} = .ok parts ∧
        Tiles pm.lineStart launcherChainLine.length (parts.pieces.map Prod.snd) ∧
        (∀ k, (parts.pieces.map Prod.snd).countP (Covers k) =
          if pm.lineStart ≤ k ∧ k < launcherChainLine.length then 1 else 0) ∧
        (∀ x ∈ parts.pieces, x.1 = joinValues launcherChainLine x.2.1 x.2.2) ∧
        " ".intercalate (parts.pieces.map Prod.fst) =
          joinValues launcherChainLine pm.lineStart launcherChainLine.length ∧
        (0 < pm.lineStart →
          ∃ t ∈ launcherChainLine.head?, (isLauncher (Path.basename t.value)).isSome) := by
  -- the kernel runs the search; the found program's launcher is the second word
  have hrun : (findProgram launcherChainLine {}).toOption = some (some
      { canonical := "gcc", matched := "gcc", source := .builtin, tokenIndex := 2,
        launcher := some { name := "distcc", tokenIndex := 1, argsEnd := 2 } }) := by
    decide +kernel
  cases hfound : findProgram launcherChainLine {} with
  | error err => rw [hfound] at hrun; cases hrun
  | ok r =>
    rw [hfound] at hrun
    cases hrun
    exact ⟨_, rfl, rfl, splitCommandLine_parts_tile hfound⟩

/-- A launcher before another: the program is found, the parts start at the second
launcher, and the first word is in no part of the line. -/
theorem splitCommandLine_chain_drops_first_launcher :
    ((findProgram launcherChainLine {}).toOption.bind id).map ProgramMatch.lineStart = some 1 ∧
      (splitCommandLine launcherChainLine {}).toOption.map
        (fun parts ↦ (parts.pieces.map Prod.snd).countP (Covers 0)) = some 0 := by
  decide +kernel

end FlagLine
