import FlagLine.Editor.Session
import FlagLine.Proofs.Token.Reread
/-!
# Deleting the parameter under the cursor

The command that deletes the parameter under the cursor cuts the word's raw text out of the
line together with the blanks after it, and puts the cursor where the word began. The other
words read back as they were, with the same values, raw texts and quotes, in the same order,
because reading is local. The word before the cut reads the same: an unquoted word ends at a
blank, which the cut keeps, and a quoted word closed by its quote reads the same before any
text (`rereads_after_cut`). The words after the cut are read from the same text at other
positions (`tokensFrom_form_move`), and the blanks cut after the word only move them
(`tokensFrom_dropBlanks`). With the cursor in no word the command changes nothing. Main
statement: `Editor.deleteParam_removes_word`.
-/

namespace FlagLine

namespace Tokenize

/-- A text with the stretch `[start, stop)` cut out, together with the blanks after it. -/
def cutWord (cs : List Char) (start stop : Nat) : List Char :=
  cs.take start ++ (cs.drop stop).dropWhile Editor.isGap

theorem isGap_iff (c : Char) : Editor.isGap c = true ↔ c = ' ' ∨ c = '\t' := by
  simp [Editor.isGap]

theorem cutWord_cons (c : Char) (cs : List Char) (start stop : Nat) :
    cutWord (c :: cs) (start + 1) (stop + 1) = c :: cutWord cs start stop := rfl

theorem cutWord_zero (cs : List Char) (stop : Nat) :
    cutWord cs 0 stop = (cs.drop stop).dropWhile Editor.isGap := rfl

theorem cutWord_append {u cs : List Char} {start stop : Nat} (hstart : u.length ≤ start)
    (hstop : start ≤ stop) :
    cutWord (u ++ cs) start stop = u ++ cutWord cs (start - u.length) (stop - u.length) := by
  simp only [cutWord, List.take_append, List.drop_append, List.take_of_length_le hstart,
    List.drop_eq_nil_of_le (hstart.trans hstop), List.nil_append, List.append_assoc]

theorem drop_length_takeWhile {α : Type} (p : α → Bool) (l : List α) :
    l.drop (l.takeWhile p).length = l.dropWhile p := by
  induction l with
  | nil => rfl
  | cons a l ih => by_cases h : p a <;> simp [h, ih]

/-! ## Reading is local -/

theorem tokensFrom_form_move (pos pos' : Nat) (cs : List Char) :
    (tokensFrom pos cs).map Token.form = (tokensFrom pos' cs).map Token.form := by
  fun_induction tokensFrom pos cs generalizing pos' with
  | case1 pos => simp
  | case2 pos c r hc ih =>
    rw [tokensFrom_blank hc]
    exact ih (pos' + 1)
  | case3 pos c r hc p ih =>
    rw [tokensFrom_word hc, readToken_move pos pos' c r, List.map_cons, List.map_cons, ih]
    rfl

theorem tokensFrom_dropBlanks (pos : Nat) (cs : List Char) :
    tokensFrom pos cs =
      tokensFrom (pos + (cs.takeWhile Editor.isGap).length) (cs.dropWhile Editor.isGap) := by
  induction cs generalizing pos with
  | nil => simp
  | cons c cs ih =>
    by_cases hc : c = ' ' ∨ c = '\t'
    · have hgap : Editor.isGap c = true := (isGap_iff c).2 hc
      rw [tokensFrom_blank hc, ih, List.takeWhile_cons_of_pos hgap, List.dropWhile_cons_of_pos hgap,
        List.length_cons, Nat.add_assoc, Nat.add_comm 1]
    · have hgap : ¬Editor.isGap c = true := fun h ↦ hc ((isGap_iff c).1 h)
      rw [List.takeWhile_cons_of_neg hgap, List.dropWhile_cons_of_neg hgap, List.length_nil,
        Nat.add_zero]

theorem tokensFrom_pairwise (pos : Nat) (cs : List Char) :
    (tokensFrom pos cs).Pairwise fun a b ↦ a.stop ≤ b.start := by
  fun_induction tokensFrom pos cs with
  | case1 pos => exact .nil
  | case2 pos c r _ ih => exact ih
  | case3 pos c r _ p ih =>
    exact List.Pairwise.cons (fun b hb ↦ start_ge_of_mem_tokensFrom _ _ b hb) ih

theorem start_lt_stop_of_mem_tokensFrom {pos : Nat} {cs : List Char} {t : Token}
    (ht : t ∈ tokensFrom pos cs) : t.start < t.stop :=
  (layout_tokensFrom (List.replicate pos ' ' ++ cs) pos cs (by simp)).start_lt_stop t ht

/-- A word spans the character it starts with and the text before what follows it. -/
theorem readToken_span {c : Char} (hc : ¬(c = ' ' ∨ c = '\t')) (pos : Nat) (r : List Char) :
    ∃ xs, (readToken pos c r).1.raw.toList = c :: xs ∧ r = xs ++ (readToken pos c r).2 ∧
      (readToken pos c r).1.stop = pos + (xs.length + 1) := by
  obtain ⟨xs, hraw, hr⟩ := readToken_raw hc pos r
  refine ⟨xs, hraw, hr, ?_⟩
  rw [readToken_stop, ← String.length_toList, hraw, List.length_cons]

/-- A word reads the same before a text that starts with the blank that followed it, and a
word that touched the next one is a closed quoted token, which reads the same before any
text. -/
theorem rereads_after_cut {pos : Nat} {c e : Char} {r r₁ ctx : List Char}
    (hc : ¬(c = ' ' ∨ c = '\t')) (hrest : (readToken pos c r).2 = e :: r₁)
    (hctx : (e = ' ' ∨ e = '\t') → EndsWord ctx) : Rereads (readToken pos c r).1 ctx := by
  by_cases he : e = ' ' ∨ e = '\t'
  · exact (readToken_rereads hc pos r).2 (by simp [hrest]) ctx (hctx he)
  · rcases readToken_cases hc pos r with
      ⟨ys, v, rest, hq, hbody, rfl⟩ | ⟨ys, v, b, rest, hq, hw, hend, rfl⟩ | ⟨hnil, -⟩
    · exact rereads_quoted hq hbody rest ctx
    · rw [readToken_bare hq hw hend] at hrest
      subst hrest
      exact absurd hend he
    · simp [hnil] at hrest

/-- The first word of a text, followed by the cut text of what comes after it, reads back
as itself in front of the words of the cut text. -/
theorem tokensFrom_word_cut {pos : Nat} {c : Char} {r : List Char} (hc : ¬(c = ' ' ∨ c = '\t'))
    {t : Token} (ht : t ∈ tokensFrom (readToken pos c r).1.stop (readToken pos c r).2) :
    ∃ xs, c :: r = c :: xs ++ (readToken pos c r).2 ∧
      (readToken pos c r).1.stop = pos + (xs.length + 1) ∧
      tokensFrom pos (c :: xs ++ cutWord (readToken pos c r).2 (t.start - (readToken pos c r).1.stop)
          (t.stop - (readToken pos c r).1.stop)) =
        { (readToken pos c r).1 with start := pos, stop := (readToken pos c r).1.stop } ::
          tokensFrom (readToken pos c r).1.stop (cutWord (readToken pos c r).2
            (t.start - (readToken pos c r).1.stop) (t.stop - (readToken pos c r).1.stop)) := by
  obtain ⟨xs, hraw, hr, hstop⟩ := readToken_span hc pos r
  refine ⟨xs, by rw [List.cons_append, ← hr], hstop, ?_⟩
  obtain ⟨e, r₁, hrest⟩ : ∃ e r₁, (readToken pos c r).2 = e :: r₁ := by
    cases hrest : (readToken pos c r).2 with
    | nil => simp [hrest] at ht
    | cons e r₁ => exact ⟨e, r₁, rfl⟩
  have hctx : (e = ' ' ∨ e = '\t') → EndsWord (cutWord (readToken pos c r).2
      (t.start - (readToken pos c r).1.stop) (t.stop - (readToken pos c r).1.stop)) := by
    intro he
    rw [hrest, tokensFrom_blank he] at ht
    have hafter := start_ge_of_mem_tokensFrom _ _ t ht
    have hlt := start_lt_stop_of_mem_tokensFrom ht
    obtain ⟨i, hi⟩ : ∃ i, t.start - (readToken pos c r).1.stop = i + 1 :=
      ⟨t.start - (readToken pos c r).1.stop - 1, by omega⟩
    obtain ⟨j, hj⟩ : ∃ j, t.stop - (readToken pos c r).1.stop = j + 1 :=
      ⟨t.stop - (readToken pos c r).1.stop - 1, by omega⟩
    rw [hi, hj, hrest, cutWord_cons, endsWord_cons]
    exact he
  obtain ⟨c', xs', hraw', -, hread⟩ := rereads_after_cut hc hrest hctx
  obtain ⟨rfl, rfl⟩ := List.cons_eq_cons.1 (hraw'.symm.trans hraw)
  rw [List.cons_append, tokensFrom_word hc, hread pos, ← readToken_stop]

/-- Cutting a word, with the blanks after it, out of the text from `pos` on leaves a text
that reads as the other words, with the same values, raw texts and quotes, in order. The
induction follows the tokenizer: a blank before the word stays in front of the cut, and each
word before it reads the same before the cut text. -/
theorem tokensFrom_cutWord (pos : Nat) (r : List Char) {t : Token} {B : List Token} :
    ∀ A, tokensFrom pos r = A ++ t :: B →
      (tokensFrom pos (cutWord r (t.start - pos) (t.stop - pos))).map Token.form =
        (A ++ B).map Token.form := by
  fun_induction tokensFrom pos r with
  | case1 pos =>
    intro A h
    simp at h
  | case2 pos c r hc ih =>
    intro A h
    have hmem : t ∈ tokensFrom (pos + 1) r := by
      rw [h]
      simp
    have hstart := start_ge_of_mem_tokensFrom (pos + 1) r t hmem
    have hlt := start_lt_stop_of_mem_tokensFrom hmem
    have hs : t.start - pos = t.start - (pos + 1) + 1 := by omega
    have hs' : t.stop - pos = t.stop - (pos + 1) + 1 := by omega
    rw [hs, hs', cutWord_cons, tokensFrom_blank hc]
    exact ih A h
  | case3 pos c r hc p ih =>
    intro A h
    cases A with
    | nil =>
      obtain ⟨rfl, rfl⟩ := List.cons_eq_cons.1 h
      obtain ⟨xs, -, hr, hstop⟩ := readToken_span hc pos r
      have hcut : cutWord (c :: r) ((readToken pos c r).1.start - pos)
          ((readToken pos c r).1.stop - pos) = (readToken pos c r).2.dropWhile Editor.isGap := by
        have hdrop : (c :: r).drop (xs.length + 1) = (readToken pos c r).2 := by
          rw [List.drop_succ_cons]
          exact (congrArg (List.drop xs.length) hr).trans List.drop_left
        rw [readToken_start, Nat.sub_self, cutWord_zero, hstop, Nat.add_sub_cancel_left, hdrop]
      rw [hcut, List.nil_append, tokensFrom_form_move pos
        ((readToken pos c r).1.stop + ((readToken pos c r).2.takeWhile Editor.isGap).length),
        ← tokensFrom_dropBlanks]
    | cons a A =>
      obtain ⟨rfl, hrest⟩ := List.cons_eq_cons.1 h
      have hmem : t ∈ tokensFrom (readToken pos c r).1.stop (readToken pos c r).2 := by
        rw [hrest]
        simp
      have hafter := start_ge_of_mem_tokensFrom _ _ t hmem
      have hlt := start_lt_stop_of_mem_tokensFrom hmem
      obtain ⟨xs, hr, hstop, hread⟩ := tokensFrom_word_cut hc hmem
      have hcut : cutWord (c :: r) (t.start - pos) (t.stop - pos) =
          c :: xs ++ cutWord (readToken pos c r).2 (t.start - (readToken pos c r).1.stop)
            (t.stop - (readToken pos c r).1.stop) := by
        rw [hr, cutWord_append (by simp; omega) (by omega), List.length_cons, hstop,
          Nat.sub_sub, Nat.sub_sub]
      rw [hcut, hread, List.map_cons, ih A hrest, List.cons_append, List.map_cons]
      rfl

/-- Cutting the `k`-th word of a text, with the blanks after it, leaves a text that reads as
the other words, with the same values, raw texts and quotes, in order. -/
theorem tokensFrom_cutWord_eraseIdx {cs : List Char} {ts : List Token} (hts : tokensFrom 0 cs = ts)
    {k : Nat} (hk : k < ts.length) :
    (tokensFrom 0 (cutWord cs ts[k].start ts[k].stop)).map Token.form =
      (ts.eraseIdx k).map Token.form := by
  have hsplit : tokensFrom 0 cs = ts.take k ++ ts[k] :: ts.drop (k + 1) := by
    rw [← List.drop_eq_getElem_cons hk, List.take_append_drop, hts]
  have hcut := tokensFrom_cutWord 0 cs _ hsplit
  rw [Nat.sub_zero, Nat.sub_zero] at hcut
  rw [hcut, List.eraseIdx_eq_take_drop_succ]

end Tokenize

/-- Moving the cursor to the start of a word and deleting the word and the blanks after it
cuts them out of the line and leaves the cursor where the word began. -/
theorem Buffer.moveTo_delete_word {b : Buffer} {start stop : Nat} (hlt : start < stop)
    (hle : stop ≤ b.text.length) :
    (b.moveTo start).delete (stop - start + ((b.text.drop stop).takeWhile Editor.isGap).length) =
      ⟨Tokenize.cutWord b.text start stop, start⟩ := by
  have hmove : b.moveTo start = ⟨b.text, start⟩ := by
    simp only [Buffer.moveTo, Int.toNat_natCast]
    rw [Nat.min_eq_left (by omega)]
  have hdrop : b.text.drop (start + (stop - start + ((b.text.drop stop).takeWhile Editor.isGap).length)) =
      (b.text.drop stop).dropWhile Editor.isGap := by
    rw [show start + (stop - start + ((b.text.drop stop).takeWhile Editor.isGap).length) =
      stop + ((b.text.drop stop).takeWhile Editor.isGap).length by omega, ← List.drop_drop,
      Tokenize.drop_length_takeWhile]
  have hkept : start ≤ (Tokenize.cutWord b.text start stop).length := by
    simp [Tokenize.cutWord]
    omega
  rw [hmove]
  simp only [Buffer.delete, if_pos (show start < b.text.length by omega), Buffer.replace]
  rw [hdrop]
  exact congrArg (Buffer.mk _) (Nat.min_eq_left hkept)

namespace Editor

variable {e : Editor} {args : List String}

theorem tokens_eq (e : Editor) : e.tokens = Tokenize.tokensFrom 0 e.buffer.text := by
  simp [tokens, tokenize, Buffer.line]

theorem tokens_start_lt_stop (e : Editor) : ∀ t ∈ e.tokens, t.start < t.stop := by
  rw [tokens_eq]
  exact fun t ht ↦ Tokenize.start_lt_stop_of_mem_tokensFrom ht

theorem tokens_stop_le_length (e : Editor) : ∀ t ∈ e.tokens, t.stop ≤ e.buffer.text.length := by
  rw [tokens_eq]
  exact (Tokenize.layout_tokensFrom e.buffer.text 0 e.buffer.text rfl).stop_le_length

def cursorIn (e : Editor) (t : Token) : Bool := t.start ≤ e.buffer.cursor && e.buffer.cursor < t.stop

theorem perform_deleteParam_of_find {t : Token} (h : e.tokens.find? e.cursorIn = some t) :
    e.perform "delete-param" args = .ok ({}, e.edit fun b ↦
      (b.moveTo t.start).delete (t.stop - t.start + ((e.buffer.text.drop t.stop).takeWhile isGap).length)) := by
  dsimp only [perform]
  rw [show (fun t : Token ↦ t.start ≤ e.buffer.cursor && e.buffer.cursor < t.stop) = e.cursorIn from rfl, h]
  rfl

theorem perform_deleteParam_of_none (h : e.tokens.find? e.cursorIn = none) :
    e.perform "delete-param" args = .ok ({}, e) := by
  dsimp only [perform]
  rw [show (fun t : Token ↦ t.start ≤ e.buffer.cursor && e.buffer.cursor < t.stop) = e.cursorIn from rfl, h]
  rfl

/-- The word the cursor lies in is the first found: the words before it end before it starts. -/
theorem find_cursorIn {k : Nat} (hk : k < e.tokens.length) (hstart : e.tokens[k].start ≤ e.buffer.cursor)
    (hstop : e.buffer.cursor < e.tokens[k].stop) : e.tokens.find? e.cursorIn = some e.tokens[k] := by
  have hpw : e.tokens.Pairwise fun a b ↦ a.stop ≤ b.start := by
    rw [tokens_eq]
    exact Tokenize.tokensFrom_pairwise 0 _
  rw [List.find?_eq_some_iff_getElem]
  refine ⟨by simp [cursorIn, hstart, hstop], k, hk, rfl, fun j hj ↦ ?_⟩
  have hbefore := List.pairwise_iff_getElem.1 hpw j k (by omega) hk hj
  have hlt := e.tokens_start_lt_stop _ (List.getElem_mem (by omega : j < e.tokens.length))
  simp only [cursorIn, Bool.not_eq_true', Bool.and_eq_false_iff, decide_eq_false_iff_not]
  omega

/-- Deleting the parameter under the cursor: when the cursor lies in the span of the `k`-th
word, the line left reads as the other words, with the same values, raw texts and quotes, in
order, and the cursor stands where the word began; when it lies in no word, nothing changes. -/
theorem deleteParam_removes_word (e : Editor) (args : List String) :
    ∃ e', e.perform "delete-param" args = .ok ({}, e') ∧
      (∀ k (hk : k < e.tokens.length), e.tokens[k].start ≤ e.buffer.cursor →
        e.buffer.cursor < e.tokens[k].stop →
          e'.tokens.map Token.form = (e.tokens.eraseIdx k).map Token.form ∧
            e'.buffer.cursor = e.tokens[k].start) ∧
      ((∀ t ∈ e.tokens, ¬(t.start ≤ e.buffer.cursor ∧ e.buffer.cursor < t.stop)) → e' = e) := by
  cases hfind : e.tokens.find? e.cursorIn with
  | none =>
    refine ⟨e, perform_deleteParam_of_none hfind, fun k hk hstart hstop ↦ ?_, fun _ ↦ rfl⟩
    rw [find_cursorIn hk hstart hstop] at hfind
    cases hfind
  | some t =>
    refine ⟨_, perform_deleteParam_of_find hfind, fun k hk hstart hstop ↦ ?_, fun hout ↦ ?_⟩
    · rw [find_cursorIn hk hstart hstop, Option.some.injEq] at hfind
      subst hfind
      have hmem : e.tokens[k] ∈ e.tokens := List.getElem_mem hk
      have hbuf := Buffer.moveTo_delete_word (b := e.buffer) (e.tokens_start_lt_stop _ hmem)
        (e.tokens_stop_le_length _ hmem)
      refine ⟨?_, ?_⟩
      · rw [tokens_eq (e.edit _)]
        change (Tokenize.tokensFrom 0 ((e.buffer.moveTo _).delete _).text).map _ = _
        rw [hbuf]
        exact Tokenize.tokensFrom_cutWord_eraseIdx (tokens_eq e).symm hk
      · change ((e.buffer.moveTo _).delete _).cursor = _
        rw [hbuf]
    · have hmem := List.mem_of_find?_eq_some hfind
      have hin := List.find?_some hfind
      simp only [cursorIn, Bool.and_eq_true, decide_eq_true_eq] at hin
      exact absurd hin (hout t hmem)

end Editor

end FlagLine
