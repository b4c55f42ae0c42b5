import FlagLine.Editor.Lexer
import FlagLine.Proofs.Token.Layout
import FlagLine.Proofs.Match.History
import FlagLine.Proofs.Editor.GroupColors
/-!
# What the lexer writes for a line

The lexer writes a line as styled pieces: the blanks between words as they are, and in the
place of each word the word's own pieces. A word is written as its raw text while
duplicates are shown and when the lights dim it. Otherwise it is written from its value and
its captures, each of which is the part of the value between where it starts and stops:
the value is read from its start through the bounds of the captures, in the order they
start, to its end (`Lexer.writtenChars`). A word whose captures lie one after another is
written as its value, without its quotes and escapes, and a word whose captures nest is
written with the nested part again. Main statement: `lex_styled_chars`, which gives the
characters of the pieces for every lexer, view and line. The pieces spell the line while
duplicates are shown and when every word is dimmed (`lex_styled_chars_of_view`,
`lex_styled_chars_of_dark`); with the lights on, `gcc "a b"` is written `gcc a b`
(`lex_styled_chars_drops_quotes`).
-/

namespace FlagLine

def Styled.chars (s : Styled) : List Char := s.flatMap fun p ↦ p.2.toList

@[simp] theorem Styled.chars_nil : Styled.chars [] = [] := rfl

@[simp] theorem Styled.chars_cons (p : String × String) (s : Styled) :
    Styled.chars (p :: s) = p.2.toList ++ s.chars := rfl

@[simp] theorem Styled.chars_append (s s' : Styled) : (s ++ s').chars = s.chars ++ s'.chars := by
  simp [Styled.chars]

/-- A capture whose text is the characters of a word between where it starts and stops. -/
def Capture.SliceOf (g : Capture) (cs : List Char) : Prop :=
  g.value.toList = (cs.drop g.start).take (g.stop - g.start)

/-- The positions where the captures of a word start and stop, in the order they start. -/
def WordMatch.captureBounds (w : WordMatch) : List Nat :=
  w.capturesByStart.flatMap fun g ↦ [g.start, g.stop]

theorem Capture.whole_sliceOf (t : Token) : (Capture.whole t).SliceOf t.value.toList := by
  simp only [Capture.SliceOf, Capture.whole, List.drop_zero, Nat.sub_zero]
  rw [← String.length_toList, List.take_length]

theorem captures_sliceOf (p : Regex.Pattern) (flag : Flag) (f : Regex.Found) (t : Token) :
    ∀ g ∈ captures p flag f t, g.SliceOf t.value.toList := by
  intro g hg
  dsimp only [captures] at hg
  split at hg
  · rw [List.mem_singleton.1 hg]
    exact Capture.whole_sliceOf t
  · obtain ⟨j, -, hj⟩ := List.mem_filterMap.1 hg
    obtain ⟨⟨s, e⟩, -, rfl⟩ := Option.map_eq_some_iff.1 hj
    simp [Capture.SliceOf, String.toList_ofList]

/-- A word matched by a set of patterns is left unmatched, or takes the flag and the
captures of a pattern that matches it. -/
theorem PatternSet.matchWord_cases (s : PatternSet) (t : Token) :
    s.matchWord t = WordMatch.unmatched t ∨
      ∃ p flag f, s.matchWord t = { token := t, category := flag.category, flag := some flag,
                                    groups := captures p flag f t, matched := true } := by
  dsimp only [PatternSet.matchWord]
  rw [Option.getD.eq_def]
  split
  · rename_i w hw
    obtain ⟨g, -, hg⟩ := List.exists_of_findSome?_eq_some hw
    obtain ⟨⟨p, flag⟩, -, hp⟩ := List.exists_of_findSome?_eq_some hg
    obtain ⟨f, -, rfl⟩ := Option.map_eq_some_iff.mp hp
    exact .inr ⟨p, flag, f, rfl⟩
  · exact .inl rfl

@[simp] theorem PatternSet.matchWord_token (s : PatternSet) (t : Token) :
    (s.matchWord t).token = t := by
  rcases s.matchWord_cases t with h | ⟨p, flag, f, h⟩
  · rw [h]
    rfl
  · rw [h]

theorem PatternSet.matchWord_sliceOf (s : PatternSet) (t : Token) :
    ∀ g ∈ (s.matchWord t).groups, g.SliceOf t.value.toList := by
  rcases s.matchWord_cases t with h | ⟨p, flag, f, h⟩ <;> rw [h]
  · simpa [WordMatch.unmatched] using Capture.whole_sliceOf t
  · exact captures_sliceOf p flag f t

theorem placeWord_token (found : Option ProgramMatch) (ps : PatternSet) (i : Nat) (t : Token) :
    (placeWord found ps i t).token = t := by
  rcases placeWord_cases found ps i t with ⟨category, h⟩ | h
  · rw [h]
    rfl
  · rw [h, PatternSet.matchWord_token]

theorem placeWord_sliceOf (found : Option ProgramMatch) (ps : PatternSet) (i : Nat) (t : Token) :
    ∀ g ∈ (placeWord found ps i t).groups, g.SliceOf t.value.toList := by
  rcases placeWord_cases found ps i t with ⟨category, h⟩ | h <;> rw [h]
  · simpa [WordMatch.placed] using Capture.whole_sliceOf t
  · exact ps.matchWord_sliceOf t

theorem map_token_mapIdx (ts : List Token) {place : Nat → Token → WordMatch}
    (hplace : ∀ i t, (place i t).token = t) : (ts.mapIdx place).map WordMatch.token = ts := by
  rw [List.mapIdx_eq_zipIdx_map, List.map_map]
  simp [Function.comp_def, hplace]

namespace Matcher

variable {m m' : Matcher} {ts : List Token} {results : List WordMatch}

/-- Matching a line gives one match per word, for the words in order. -/
theorem matchLine_tokens (h : m.matchLine ts = .ok (results, m')) :
    results.map WordMatch.token = ts := by
  obtain ⟨found, ps, rfl⟩ := matchLine_eq_mapIdx h
  exact map_token_mapIdx ts (placeWord_token found ps)

/-- Every capture of a matched word is the part of the word between where it starts and
stops. -/
theorem matchLine_sliceOf (h : m.matchLine ts = .ok (results, m')) :
    ∀ w ∈ results, ∀ g ∈ w.groups, g.SliceOf w.token.value.toList := by
  obtain ⟨found, ps, rfl⟩ := matchLine_eq_mapIdx h
  intro w hw
  obtain ⟨i, hi, rfl⟩ := List.mem_mapIdx.1 hw
  rw [placeWord_token]
  exact placeWord_sliceOf found ps i _

end Matcher

namespace Lexer

variable (lx : Lexer) (view : Option DuplicateView) (text : String)

/-- The piece of a text between two positions is its characters between them. -/
@[simp] theorem slice_toList (s : String) (start stop : Nat) :
    (slice s start stop).toList = (s.toList.drop start).take (stop - start) := by
  simp [slice]

/-- One word of a line written after the pieces so far, which end at position `acc.2`: the
blank before the word, unstyled, then the word's pieces. -/
def placeWord (acc : Styled × Nat) (p : WordMatch × Nat) : Styled × Nat :=
  let gap : Styled :=
    if p.1.token.start > acc.2 then [("", slice text acc.2 p.1.token.start)] else []
  (acc.1 ++ gap ++ lx.styleWord view p.2 p.1, p.1.token.stop)

/-- A line is styled by placing its words one after another, then the blanks after the last. -/
theorem styleLine_eq_foldl (results : List WordMatch) :
    lx.styleLine view results text =
      let acc := results.zipIdx.foldl (lx.placeWord view text) ([], 0)
      if acc.2 < text.length then acc.1 ++ [("", slice text acc.2 text.length)] else acc.1 :=
  rfl

/-- Placing a word adds the text from the end of the pieces so far to the word's start, then
the word's pieces. -/
theorem chars_placeWord (acc : Styled × Nat) (p : WordMatch × Nat) :
    (lx.placeWord view text acc p).1.chars =
      acc.1.chars ++ (text.toList.drop acc.2).take (p.1.token.start - acc.2) ++
        (lx.styleWord view p.2 p.1).chars := by
  unfold placeWord
  split_ifs with hgap
  · simp
  · have hzero : p.1.token.start - acc.2 = 0 := by omega
    simp [hzero]

/-- Placing words one after another writes the text between them as it is and the words'
pieces in their places. -/
theorem chars_foldl_placeWord (L : List (WordMatch × Nat)) (acc : Styled × Nat) :
    (L.foldl (lx.placeWord view text) acc).1.chars ++
        text.toList.drop (L.foldl (lx.placeWord view text) acc).2 =
      acc.1.chars ++ Tokenize.replaceSpans text.toList acc.2
        (L.map fun p ↦ (p.1.token, (lx.styleWord view p.2 p.1).chars)) := by
  induction L generalizing acc with
  | nil => simp [Tokenize.replaceSpans]
  | cons p L ih =>
    rw [List.foldl_cons, ih, chars_placeWord, List.map_cons, Tokenize.replaceSpans]
    simp only [List.append_assoc]
    rfl

/-- The pieces of a styled line are the line with each word's span replaced by its pieces. -/
theorem styleLine_chars (results : List WordMatch) :
    (lx.styleLine view results text).chars = Tokenize.replaceSpans text.toList 0
      (results.zipIdx.map fun p ↦ (p.1.token, (lx.styleWord view p.2 p.1).chars)) := by
  have hfold := lx.chars_foldl_placeWord view text results.zipIdx ([], 0)
  rw [styleLine_eq_foldl]
  simp only [Styled.chars_nil, List.nil_append] at hfold
  rw [← hfold]
  set acc := results.zipIdx.foldl (lx.placeWord view text) ([], 0)
  dsimp only
  split_ifs with hlast
  · simp only [Styled.chars_append, Styled.chars_cons, Styled.chars_nil, slice_toList,
      List.append_nil]
    congr 1
    apply List.take_of_length_le
    rw [List.length_drop, String.length_toList]
  · have hnil : text.toList.drop acc.2 = [] :=
      List.drop_eq_nil_of_le (by rw [String.length_toList]; omega)
    rw [hnil, List.append_nil]

theorem styleWord_chars_of_view (v : DuplicateView) (i : Nat) (w : WordMatch) :
    (lx.styleWord (some v) i w).chars = w.token.raw.toList := by
  simp only [styleWord]
  split_ifs <;> simp

theorem styleWord_chars_of_dims {w : WordMatch} (hd : lx.dims w.category = true) (i : Nat) :
    (lx.styleWord none i w).chars = w.token.raw.toList := by
  simp [styleWord, hd]

/-! ## The characters of a word -/

/-- The characters of a text read along a path of positions: from each position up to the
next one, and nothing where the path goes back. -/
def readAlong (cs : List Char) : Nat → List Nat → List Char
  | _, [] => []
  | a, b :: path => (cs.drop a).take (b - a) ++ readAlong cs b path

/-- The characters the lexer writes for a word: its raw text while duplicates are shown,
when the lights dim it or when it has no captures; else its value, read from its start
through the bounds of its captures to its end. -/
def writtenChars (w : WordMatch) : List Char :=
  if view.isSome || lx.dims w.category || w.groups.isEmpty then w.token.raw.toList
  else readAlong w.token.value.toList 0 (w.captureBounds ++ [w.token.value.length])

@[simp] theorem readAlong_nil (cs : List Char) (a : Nat) : readAlong cs a [] = [] := rfl

@[simp] theorem readAlong_cons (cs : List Char) (a b : Nat) (path : List Nat) :
    readAlong cs a (b :: path) = (cs.drop a).take (b - a) ++ readAlong cs b path := rfl

/-- Read along a path that never goes back, a text gives its characters from the first
position to the last. -/
theorem readAlong_of_sorted (cs : List Char) {a b : Nat} {path : List Nat}
    (h : (a :: path ++ [b]).Pairwise (· ≤ ·)) :
    readAlong cs a (path ++ [b]) = (cs.drop a).take (b - a) := by
  induction path generalizing a with
  | nil => simp
  | cons p path ih =>
    obtain ⟨hle, hrest⟩ := List.pairwise_cons.1 h
    have hap : a ≤ p := hle p (by simp)
    have hpb : p ≤ b := (List.pairwise_cons.1 hrest).1 b (by simp)
    rw [List.cons_append, readAlong_cons, ih hrest]
    calc (cs.drop a).take (p - a) ++ (cs.drop p).take (b - p)
        = (cs.drop a).take (p - a) ++ ((cs.drop a).drop (p - a)).take (b - p) := by
          rw [List.drop_drop, Nat.add_sub_cancel' hap]
      _ = (cs.drop a).take (b - a) := by
          rw [← List.take_add, show p - a + (b - p) = b - a by omega]

/-- One capture written after the pieces so far adds the text from the end of the pieces to
the capture's start, then the capture. -/
theorem chars_groupStep (value : String) (colors : List Color) (cls : String)
    (acc : Styled × Nat) (q : Capture × Nat) :
    (groupStep value colors cls acc q).1.chars =
      acc.1.chars ++ (value.toList.drop acc.2).take (q.1.start - acc.2) ++ q.1.value.toList := by
  unfold groupStep
  split_ifs with hgap
  · simp
  · have hzero : q.1.start - acc.2 = 0 := by omega
    simp [hzero]

/-- Captures that are slices of a word, written one after another, read the word from the end
of the pieces so far through the bounds of the captures. -/
theorem chars_foldl_groupStep (value : String) (colors : List Color) (cls : String)
    (L : List (Capture × Nat)) (hL : ∀ q ∈ L, q.1.SliceOf value.toList) (acc : Styled × Nat) :
    (L.foldl (groupStep value colors cls) acc).1.chars ++
        readAlong value.toList (L.foldl (groupStep value colors cls) acc).2 [value.length] =
      acc.1.chars ++
        readAlong value.toList acc.2 ((L.flatMap fun q ↦ [q.1.start, q.1.stop]) ++ [value.length]) := by
  induction L generalizing acc with
  | nil => simp
  | cons q L ih =>
    have hq : q.1.SliceOf value.toList := hL q List.mem_cons_self
    rw [List.foldl_cons, ih (fun q' hq' ↦ hL q' (List.mem_cons_of_mem q hq')), chars_groupStep, hq]
    simp only [List.flatMap_cons, List.cons_append, List.nil_append, readAlong_cons,
      List.append_assoc]
    rfl

/-- A word styled by captures that are slices of it is its value read along the bounds of
the captures. -/
theorem chars_styleGroups (value : String) {gs : List Capture}
    (hgs : ∀ g ∈ gs, g.SliceOf value.toList) (colors : List Color) (category : String) :
    (styleGroups value gs colors category).chars =
      readAlong value.toList 0
        (((gs.mergeSort fun a b ↦ decide (a.start ≤ b.start)).flatMap fun g ↦ [g.start, g.stop]) ++
          [value.length]) := by
  rw [styleGroups_eq_foldl]
  have hsliced : ∀ q ∈ (gs.mergeSort fun a b ↦ decide (a.start ≤ b.start)).zipIdx,
      q.1.SliceOf value.toList :=
    fun q hq ↦ hgs q.1 (List.mem_mergeSort.1 (List.fst_mem_of_mem_zipIdx hq))
  generalize gs.mergeSort (fun a b ↦ decide (a.start ≤ b.start)) = sorted at hsliced ⊢
  have hfold := chars_foldl_groupStep value colors (styleClass category) sorted.zipIdx hsliced ([], 0)
  have hbounds : (sorted.zipIdx.flatMap fun q ↦ [q.1.start, q.1.stop]) =
      sorted.flatMap fun g ↦ [g.start, g.stop] := by
    conv_rhs => rw [← List.zipIdx_map_fst 0 sorted, List.flatMap_map]
  rw [hbounds, Styled.chars_nil, List.nil_append] at hfold
  rw [← hfold]
  generalize sorted.zipIdx.foldl (groupStep value colors (styleClass category)) ([], 0) = acc
  dsimp only
  split_ifs with hlast
  · simp
  · have hnil : value.toList.drop acc.2 = [] :=
      List.drop_eq_nil_of_le (by rw [String.length_toList]; omega)
    simp [hnil]

/-- The pieces of a word whose captures are slices of it are the characters it is written
as. -/
theorem chars_styleWord (i : Nat) {w : WordMatch}
    (hw : ∀ g ∈ w.groups, g.SliceOf w.token.value.toList) :
    (lx.styleWord view i w).chars = lx.writtenChars view w := by
  cases view with
  | some v => simp [writtenChars, styleWord_chars_of_view]
  | none =>
    by_cases hd : lx.dims w.category = true
    · simp [writtenChars, styleWord_chars_of_dims lx hd, hd]
    · by_cases hg : w.groups.isEmpty = true
      · simp [writtenChars, styleWord, hd, hg]
      · simp only [styleWord, writtenChars, hd, hg, if_false, Option.isSome_none,
          Bool.false_or, Bool.false_eq_true]
        exact chars_styleGroups _ hw _ _

/-- A lit word whose captures lie one after another within it is written as its value. -/
theorem writtenChars_of_sorted {w : WordMatch} (hlit : lx.dims w.category = false)
    (hgroups : w.groups ≠ [])
    (hsorted : (0 :: w.captureBounds ++ [w.token.value.length]).Pairwise (· ≤ ·)) :
    lx.writtenChars none w = w.token.value.toList := by
  have hne : w.groups.isEmpty = false := by simpa using hgroups
  simp only [writtenChars, Option.isSome_none, hlit, hne, Bool.or_self, Bool.false_eq_true,
    if_false]
  rw [readAlong_of_sorted _ hsorted, List.drop_zero, Nat.sub_zero, ← String.length_toList,
    List.take_length]

/-! ## The characters of a line -/

/-- A styled line comes from matching the words of the line, and is styled by the lexer with
the matcher that the matching leaves. -/
theorem lex_ok {r : Lexed} (h : lx.lex view text = .ok r) :
    ∃ (m : Matcher) (results : List WordMatch) (m' : Matcher),
      m.matchLine (tokenize text) = .ok (results, m') ∧ r.lexer = { lx with matcher := m' } ∧
        r.styled = r.lexer.styleLine view results text := by
  dsimp only [lex] at h
  split at h
  · obtain ⟨m, -, h⟩ := Except.bind_eq_ok h
    obtain ⟨lx', hlx', h⟩ := Except.bind_eq_ok h
    obtain ⟨⟨results, m'⟩, hmatch, h⟩ := Except.bind_eq_ok h
    cases hlx'
    cases h
    exact ⟨_, results, m', hmatch, rfl, rfl⟩
  · obtain ⟨lx', hlx', h⟩ := Except.bind_eq_ok h
    obtain ⟨⟨results, m'⟩, hmatch, h⟩ := Except.bind_eq_ok h
    cases hlx'
    cases h
    exact ⟨_, results, m', hmatch, rfl, rfl⟩

/-- The pieces of a styled line, read in order, are the line with the span of each word
replaced by the characters the word is written as: the text between words is kept, and each
word is written as its raw text or from its value. -/
theorem lex_styled_chars {r : Lexed} (h : lx.lex view text = .ok r) :
    ∃ results : List WordMatch, results.map WordMatch.token = tokenize text ∧
      r.styled.chars = Tokenize.replaceSpans text.toList 0
        (results.map fun w ↦ (w.token, r.lexer.writtenChars view w)) := by
  obtain ⟨m, results, m', hmatch, -, hstyled⟩ := lx.lex_ok view text h
  have hsliced := Matcher.matchLine_sliceOf hmatch
  refine ⟨results, Matcher.matchLine_tokens hmatch, ?_⟩
  rw [hstyled, styleLine_chars]
  congr 1
  calc results.zipIdx.map (fun p ↦ (p.1.token, (r.lexer.styleWord view p.2 p.1).chars))
      = results.zipIdx.map (fun p ↦ (p.1.token, r.lexer.writtenChars view p.1)) := by
        refine List.map_congr_left fun p hp ↦ ?_
        rw [r.lexer.chars_styleWord view p.2 (hsliced p.1 (List.fst_mem_of_mem_zipIdx hp))]
    _ = (results.zipIdx.map Prod.fst).map fun w ↦ (w.token, r.lexer.writtenChars view w) := by
        rw [List.map_map]
        rfl
    _ = results.map fun w ↦ (w.token, r.lexer.writtenChars view w) := by
        rw [List.zipIdx_map_fst]

/-- The line `gcc "a b"`, lexed with the lights on and no program named, has pieces that are
the line with each word written as the lexer writes it. -/
theorem lex_styled_chars_quoted :
    ∃ r, (default : Lexer).lex none "gcc \"a b\"" = .ok r ∧
      ∃ results : List WordMatch, results.map WordMatch.token = tokenize "gcc \"a b\"" ∧
        r.styled.chars = Tokenize.replaceSpans "gcc \"a b\"".toList 0
          (results.map fun w ↦ (w.token, r.lexer.writtenChars none w)) := by
  have hok : ((default : Lexer).lex none "gcc \"a b\"").toOption.isSome = true := by
    decide +kernel
  cases hlex : (default : Lexer).lex none "gcc \"a b\"" with
  | error e => rw [hlex] at hok; cases hok
  | ok r => exact ⟨r, rfl, lex_styled_chars default none _ hlex⟩

/-- When the lexer writes every word as its raw text, the pieces of a styled line spell the
line. -/
theorem lex_styled_chars_of_raw {r : Lexed} (h : lx.lex view text = .ok r)
    (hraw : ∀ i w, (r.lexer.styleWord view i w).chars = w.token.raw.toList) :
    r.styled.chars = text.toList := by
  obtain ⟨m, results, m', hmatch, -, hstyled⟩ := lx.lex_ok view text h
  have htok := Matcher.matchLine_tokens hmatch
  have hspans : results.zipIdx.map (fun p ↦ (p.1.token, (r.lexer.styleWord view p.2 p.1).chars)) =
      (tokenize text).map fun t ↦ (t, t.raw.toList) := by
    simp only [hraw]
    calc results.zipIdx.map (fun p ↦ (p.1.token, p.1.token.raw.toList))
        = (results.zipIdx.map Prod.fst).map fun w ↦ (w.token, w.token.raw.toList) := by
          rw [List.map_map]; rfl
      _ = (tokenize text).map fun t ↦ (t, t.raw.toList) := by
          rw [List.zipIdx_map_fst, ← htok, List.map_map]; rfl
  rw [hstyled, styleLine_chars, hspans]
  exact (Tokenize.layout_tokensFrom text.toList 0 text.toList rfl).spells

/-- While duplicates are shown, the pieces of a styled line spell the line. -/
theorem lex_styled_chars_of_view {v : DuplicateView} {r : Lexed}
    (h : lx.lex (some v) text = .ok r) : r.styled.chars = text.toList :=
  lx.lex_styled_chars_of_raw (some v) text h fun i w ↦ r.lexer.styleWord_chars_of_view v i w

/-- With the lights off and no category lit, every word is dimmed, and the pieces of a
styled line spell the line. -/
theorem lex_styled_chars_of_dark {r : Lexed} (hoff : lx.lightsOff = true)
    (hnone : lx.lightsCategory = none) (h : lx.lex none text = .ok r) :
    r.styled.chars = text.toList := by
  obtain ⟨-, -, m', -, hlexer, -⟩ := lx.lex_ok none text h
  refine lx.lex_styled_chars_of_raw none text h fun i w ↦ r.lexer.styleWord_chars_of_dims ?_ i
  rw [hlexer]
  simp [dims, hoff, hnone]

/-- With the lights on, a quoted word is written as its value: the line `gcc "a b"` is
written `gcc a b`. -/
theorem lex_styled_chars_drops_quotes :
    ∃ r, (default : Lexer).lex none "gcc \"a b\"" = .ok r ∧ r.styled.chars = "gcc a b".toList := by
  have hchars : ((default : Lexer).lex none "gcc \"a b\"").toOption.map (·.styled.chars) =
      some "gcc a b".toList := by
    decide +kernel
  cases hlex : (default : Lexer).lex none "gcc \"a b\"" with
  | error e => rw [hlex] at hchars; cases hchars
  | ok r =>
    rw [hlex] at hchars
    exact ⟨r, rfl, Option.some.inj hchars⟩

end Lexer

end FlagLine
