import FlagLine.Proofs.Token.Layout
/-!
# Reading a line again from its words

Joining the raw texts of some of the words of a line with single spaces gives a line that
reads back as the same words, with the same values, raw texts and quotes, in the same order.
Each raw text is read in a new place: a quoted token that touched the next word is now
followed by a space, and a word that ended the line may now be followed by more. The words
that can tell the difference are those that run to the end of the line unfinished, inside a
quoted section or after a final backslash, and such a word is the last of its line and so
the last of any words kept from it. Main statement: `tokenize_detokenize_of_sublist`.
-/

namespace FlagLine

/-- A token apart from where it lies: its value, its raw text and its quote. -/
def Token.form (t : Token) : String × String × Quote := (t.value, t.raw, t.quote)

namespace Tokenize

/-- A token is read back, wherever it is placed, from its raw text followed by `ctx`. -/
def Rereads (t : Token) (ctx : List Char) : Prop :=
  ∃ c xs, t.raw.toList = c :: xs ∧ ¬(c = ' ' ∨ c = '\t') ∧
    ∀ pos, readToken pos c (xs ++ ctx) = ({t with start := pos, stop := pos + t.raw.length}, ctx)

section Word

variable {pos : Nat} {c : Char} {r : List Char}

theorem rereads_quoted (hq : isQuoteChar c = true) {ys v : List Char} (hbody : QuotedBody c ys v)
    (rest ctx : List Char) : Rereads (readToken pos c (ys ++ rest)).1 ctx := by
  refine ⟨c, ys, by simp [readToken_quoted hq hbody], ?_, fun pos' ↦ ?_⟩
  · rintro (rfl | rfl) <;> simp at hq
  · simp only [readToken_quoted hq hbody, String.length_ofList, List.length_cons]

/-- An unquoted word reads back before a blank or the end of the line. -/
theorem rereads_bare (hq : isQuoteChar c = false) (hc : ¬(c = ' ' ∨ c = '\t')) {ys v : List Char}
    {b : Bool} (hw : BareWord (c :: ys) v b) {rest ctx : List Char} (hrest : EndsWord rest)
    (hctx : EndsWord ctx) : Rereads (readToken pos c (ys ++ rest)).1 ctx :=
  ⟨c, ys, by simp [readToken_bare hq hw hrest], hc, fun pos' ↦ by
    simp only [readToken_bare hq hw hrest, readToken_bare hq hw hctx, String.length_ofList,
      List.length_cons]⟩

/-- Every word reads back on its own, and a word that leaves text after it reads back before
a blank. -/
theorem readToken_rereads (hc : ¬(c = ' ' ∨ c = '\t')) (pos : Nat) (r : List Char) :
    Rereads (readToken pos c r).1 [] ∧
      ((readToken pos c r).2 ≠ [] → ∀ ctx, EndsWord ctx → Rereads (readToken pos c r).1 ctx) := by
  rcases readToken_cases hc pos r with
    ⟨ys, v, rest, hq, hbody, rfl⟩ | ⟨ys, v, b, rest, hq, hw, hend, rfl⟩ | ⟨hnil, -⟩
  · exact ⟨rereads_quoted hq hbody rest [], fun _ ctx _ ↦ rereads_quoted hq hbody rest ctx⟩
  · exact ⟨rereads_bare hq hc hw hend trivial, fun _ _ hctx ↦ rereads_bare hq hc hw hend hctx⟩
  · obtain ⟨xs, hraw, hr⟩ := readToken_raw hc pos r
    rw [hnil, List.append_nil] at hr
    subst hr
    refine ⟨⟨c, r, hraw, hc, fun pos' ↦ ?_⟩, fun h ↦ absurd hnil h⟩
    rw [List.append_nil, readToken_move pos pos' c, hnil]

end Word

/-- The words read from a text all read back on their own, and all but the last read back
before a blank. -/
theorem rereads_tokensFrom (pos : Nat) (cs : List Char) :
    (∀ t ∈ tokensFrom pos cs, Rereads t []) ∧
      ∀ t ∈ (tokensFrom pos cs).dropLast, ∀ ctx, EndsWord ctx → Rereads t ctx := by
  fun_induction tokensFrom pos cs with
  | case1 pos => simp
  | case2 pos c r _ ih => exact ih
  | case3 pos c r hc p ih =>
    obtain ⟨halone, hnext⟩ := readToken_rereads hc pos r
    refine ⟨fun t ht ↦ ?_, fun t ht ↦ ?_⟩
    · rcases List.mem_cons.mp ht with rfl | ht
      · exact halone
      · exact ih.1 t ht
    · cases hts : tokensFrom p.1.stop p.2 with
      | nil => simp [hts] at ht
      | cons u us =>
        rw [hts, List.dropLast_cons_cons, ← hts] at ht
        rcases List.mem_cons.mp ht with rfl | ht
        · refine hnext fun hnil ↦ ?_
          simp [p, hnil] at hts
        · exact ih.2 t ht

theorem dropLast_sublist_dropLast {α : Type} {l₁ l₂ : List α} (h : l₁.Sublist l₂) :
    l₁.dropLast.Sublist l₂.dropLast := by
  have := h.reverse.tail
  rwa [List.tail_reverse, List.tail_reverse, List.reverse_sublist] at this

/-- Words that read back, the last on its own and the others before a blank, are read back
from their raw texts joined by single spaces. -/
theorem tokensFrom_join (S : List Token) (halone : ∀ t ∈ S, Rereads t [])
    (hblank : ∀ t ∈ S.dropLast, ∀ ctx, EndsWord ctx → Rereads t ctx) (pos : Nat) :
    (tokensFrom pos (Text.join [' '] (S.map fun t ↦ t.raw.toList))).map Token.form =
      S.map Token.form := by
  induction S generalizing pos with
  | nil => simp
  | cons t S ih =>
    cases S with
    | nil =>
      obtain ⟨c, xs, hraw, hc, hread⟩ := halone t List.mem_cons_self
      have hread := hread pos
      rw [List.append_nil] at hread
      simp [hraw, tokensFrom_word hc, hread, Token.form]
    | cons u S =>
      let rest := Text.join [' '] ((u :: S).map fun t ↦ t.raw.toList)
      obtain ⟨c, xs, hraw, hc, hread⟩ := hblank t (by simp) (' ' :: rest) (by simp)
      have hjoin : Text.join [' '] ((t :: u :: S).map fun t ↦ t.raw.toList) =
          c :: (xs ++ ' ' :: rest) := by
        change t.raw.toList ++ [' '] ++ rest = _
        rw [hraw]; simp
      have hrest := ih (fun w hw ↦ halone w (List.mem_cons_of_mem _ hw))
        (fun w hw ↦ hblank w (by rw [List.dropLast_cons_cons]; exact List.mem_cons_of_mem _ hw))
      rw [hjoin, tokensFrom_word hc, hread pos, List.map_cons, tokensFrom_blank (.inl rfl), hrest,
        List.map_cons]
      rfl

/-- Joining the raw texts of words kept from a line, in order, with single spaces, gives a
line whose words have the same values, raw texts and quotes, in the same order. -/
theorem tokenize_detokenize_of_sublist {text : String} {S : List Token}
    (hS : S.Sublist (tokenize text)) :
    (tokenize (detokenize S)).map Token.form = S.map Token.form := by
  obtain ⟨halone, hblank⟩ := rereads_tokensFrom 0 text.toList
  have hjoin := tokensFrom_join S (fun t ht ↦ halone t (hS.subset ht))
    (fun t ht ↦ hblank t ((dropLast_sublist_dropLast hS).subset ht)) 0
  simpa [tokenize, detokenize, Text.joinStrings, List.map_map, Function.comp_def] using hjoin

/-- The words left after deleting the second word of a line read back unchanged. -/
theorem tokenize_detokenize_eraseIdx :
    ((tokenize "cc -o'out file'.o x.c").eraseIdx 1).Sublist (tokenize "cc -o'out file'.o x.c") ∧
      (tokenize (detokenize ((tokenize "cc -o'out file'.o x.c").eraseIdx 1))).map Token.form =
        ((tokenize "cc -o'out file'.o x.c").eraseIdx 1).map Token.form :=
  ⟨List.eraseIdx_sublist _ _, tokenize_detokenize_of_sublist (List.eraseIdx_sublist _ _)⟩

end Tokenize

end FlagLine
