import FlagLine.Token.Quoting
import FlagLine.Proofs.Token.Layout
/-!
# Reading back a rebuilt command line

A command line rebuilt from values writes a value bare when it needs no quotes, in double
quotes when it holds no double quote, in single quotes when it holds no single quote, and
otherwise in double quotes with its backslashes and double quotes escaped. Only the last form
escapes anything. Inside quotes the tokenizer takes a backslash before the quote or before
another backslash as an escape, so a value written between plain quotes reads back as itself
exactly when none of its backslashes is followed by another or ends it. Main statement:
`tokenize_rebuildCommand_values`, which says that the rebuilt line reads back as the values it
was built from exactly when every value that is written between plain quotes keeps its
backslashes.
-/

namespace FlagLine

/-- Whether a value keeps every backslash when it is put between plain quotes: no backslash
in it is followed by another backslash or ends it. -/
def keepsBackslashes : List Char → Bool
  | [] => true
  | c :: r =>
    if c = '\\' then
      match r with
      | [] => false
      | d :: _ => d != '\\' && keepsBackslashes r
    else keepsBackslashes r

/-- Whether a value reads back from the text that stands for it on a command line: it is
written bare, or escaped because it holds both quotes, or keeps its backslashes. -/
def readsBack (v : List Char) : Bool :=
  !needsQuoting v || (v.contains '"' && v.contains '\'') || keepsBackslashes v

theorem keepsBackslashes_backslash_cons (d : Char) (r : List Char) :
    keepsBackslashes ('\\' :: d :: r) = (d != '\\' && keepsBackslashes (d :: r)) := rfl

theorem keepsBackslashes_cons_of_ne {c : Char} (hc : c ≠ '\\') (r : List Char) :
    keepsBackslashes (c :: r) = keepsBackslashes r := by
  rw [keepsBackslashes.eq_def]; simp [hc]

example : keepsBackslashes "a\\b".toList = true := by decide
example : keepsBackslashes "a\\".toList = false := by decide
example : readsBack "a\\".toList = false := by decide
example : readsBack "\"a\\\" 'b'".toList = true := by decide

namespace Tokenize

section Quoted

variable {q : Char}

/-- A value without the quote `q` that keeps its backslashes, followed by `q`, is a closed
quoted body whose value is the value itself. -/
theorem quotedBody_plain (hq : '\\' ≠ q) {v : List Char} (hv : q ∉ v)
    (hkeep : keepsBackslashes v = true) : QuotedBody q (v ++ [q]) v := by
  fun_induction keepsBackslashes v with
  | case1 => exact .close
  | case2 => simp at hkeep
  | case3 d r ih =>
    rw [Bool.and_eq_true, bne_iff_ne] at hkeep
    have hd : ¬(d = q ∨ d = '\\') := by
      rintro (rfl | hd)
      · exact hv (by simp)
      · exact hkeep.1 hd
    exact .lone hq hd (ih (fun h ↦ hv (List.mem_cons_of_mem _ h)) hkeep.2)
  | case4 c r hc ih =>
    have hcq : c ≠ q := fun h ↦ hv (by simp [h])
    exact .plain hcq hc (ih (fun h ↦ hv (List.mem_cons_of_mem _ h)) hkeep)

/-- A value with its backslashes and double quotes escaped, followed by a double quote, is a
closed quoted body whose value is the value itself. -/
theorem quotedBody_escapeDouble (v : List Char) : QuotedBody '"' (escapeDouble v ++ ['"']) v := by
  induction v with
  | nil => exact .close
  | cons c r ih =>
    have hsplit : escapeDouble (c :: r) =
        (if c = '\\' ∨ c = '"' then ['\\', c] else [c]) ++ escapeDouble r := by
      simp [escapeDouble]
    rw [hsplit]
    by_cases hc : c = '\\' ∨ c = '"'
    · rw [if_pos hc]
      exact .escape (by decide) hc.symm ih
    · rw [if_neg hc]
      simp only [not_or] at hc
      exact .plain hc.2 hc.1 ih

/-- A value without `q` followed by `q`, in a text that starts with another character, starts
with that character. -/
theorem eq_cons_of_append_quote {c : Char} {r w ctx : List Char} (h : c :: r = w ++ q :: ctx)
    (hc : c ≠ q) : ∃ w', w = c :: w' ∧ r = w' ++ q :: ctx := by
  rcases w with _ | ⟨x, w'⟩
  · simp only [List.nil_append, List.cons.injEq] at h
    exact absurd h.1 hc
  · simp only [List.cons_append, List.cons.injEq] at h
    exact ⟨w', by rw [h.1], h.2⟩

/-- What the quoted scanner reads from a value without `q` followed by `q`: a value no longer
than it, or one that holds `q`, which the value does not. -/
theorem scanQuoted_short_or_mem (cs : List Char) :
    ∀ w ctx, cs = w ++ q :: ctx → q ∉ w →
      (scanQuoted q cs).value.length ≤ w.length ∨ q ∈ (scanQuoted q cs).value := by
  fun_induction scanQuoted q cs with
  | case1 => intro w ctx h; simp at h
  | case2 r => intro w ctx _ _; simp
  | case3 hq =>
    intro w ctx h _
    obtain ⟨w', -, hr⟩ := eq_cons_of_append_quote h hq
    simp at hr
  | case4 d r hd hq ih =>
    intro w ctx h hw
    obtain ⟨w', rfl, hr⟩ := eq_cons_of_append_quote h hq
    rcases w' with _ | ⟨y, w'⟩
    · simp only [List.nil_append, List.cons.injEq] at hr
      obtain ⟨rfl, -⟩ := hr
      right; simp
    · simp only [List.cons_append, List.cons.injEq] at hr
      obtain ⟨-, hr⟩ := hr
      rcases ih w' ctx hr (fun h ↦ hw (by simp [h])) with hlen | hmem
      · left; simp; omega
      · right; simp [hmem]
  | case5 d r hd hq ih =>
    intro w ctx h hw
    obtain ⟨w', rfl, hr⟩ := eq_cons_of_append_quote h hq
    rcases ih w' ctx hr (fun h ↦ hw (List.mem_cons_of_mem _ h)) with hlen | hmem
    · left; simp; omega
    · right; simp [hmem]
  | case6 c r hc hb ih =>
    intro w ctx h hw
    obtain ⟨w', rfl, hr⟩ := eq_cons_of_append_quote h hc
    rcases ih w' ctx hr (fun h ↦ hw (List.mem_cons_of_mem _ h)) with hlen | hmem
    · left; simp; omega
    · right; simp [hmem]

/-- A value without `q` that the quoted scanner reads back from it, followed by `q`, keeps its
backslashes. -/
theorem keepsBackslashes_of_scanQuoted (cs : List Char) :
    ∀ w ctx, cs = w ++ q :: ctx → q ∉ w → (scanQuoted q cs).value = w →
      keepsBackslashes w = true := by
  fun_induction scanQuoted q cs with
  | case1 => intro w ctx h; simp at h
  | case2 r =>
    intro w ctx _ _ hv
    subst hv
    rfl
  | case3 hq =>
    intro w ctx h _
    obtain ⟨w', -, hr⟩ := eq_cons_of_append_quote h hq
    simp at hr
  | case4 d r hd hq ih =>
    intro w ctx h hw hv
    obtain ⟨w', rfl, hr⟩ := eq_cons_of_append_quote h hq
    simp only [Scan.value_cons, List.cons.injEq] at hv
    obtain ⟨hdb, hvw⟩ := hv
    subst hdb
    rcases w' with _ | ⟨y, w'⟩
    · simp only [List.nil_append, List.cons.injEq] at hr
      exact absurd hr.1 hq
    · simp only [List.cons_append, List.cons.injEq] at hr
      obtain ⟨rfl, hr⟩ := hr
      -- an escaped backslash shortens what is read by one, so it cannot be read back
      rcases scanQuoted_short_or_mem r w' ctx hr (fun h ↦ hw (by simp [h])) with hlen | hmem
      · rw [hvw, List.length_cons] at hlen
        omega
      · rw [hvw] at hmem
        rcases List.mem_cons.mp hmem with h | h
        · exact absurd h.symm hq
        · exact absurd (by simp [h]) hw
  | case5 d r hd hq ih =>
    intro w ctx h hw hv
    obtain ⟨w', rfl, hr⟩ := eq_cons_of_append_quote h hq
    simp only [Scan.value_cons, List.cons.injEq] at hv
    have hkeep := ih w' ctx hr (fun h ↦ hw (List.mem_cons_of_mem _ h)) hv.2
    obtain ⟨w'', rfl, -⟩ := eq_cons_of_append_quote hr fun h ↦ hd (.inl h)
    simp only [not_or] at hd
    rw [keepsBackslashes_backslash_cons, hkeep, bne_iff_ne.mpr hd.2, Bool.and_self]
  | case6 c r hc hb ih =>
    intro w ctx h hw hv
    obtain ⟨w', rfl, hr⟩ := eq_cons_of_append_quote h hc
    simp only [Scan.value_cons, List.cons.injEq] at hv
    rw [keepsBackslashes_cons_of_ne hb]
    exact ih w' ctx hr (fun h ↦ hw (List.mem_cons_of_mem _ h)) hv.2

end Quoted

section Command

variable {q c : Char} {v : List Char}

/-- A character that a shell does not treat specially is no blank, no backslash and no
quote. -/
theorem plain_of_not_shellSpecial (h : isShellSpecial c = false) :
    ¬(c = ' ' ∨ c = '\t') ∧ c ≠ '\\' ∧ isQuoteChar c = false := by
  simp only [isShellSpecial, Bool.or_eq_false_iff, beq_eq_false_iff_ne] at h
  simp only [isQuoteChar, Bool.or_eq_false_iff, beq_eq_false_iff_ne]
  grind

/-- A value of characters that a shell does not treat specially is an unquoted word of its
own characters. -/
theorem bareWord_self (hv : ∀ c ∈ v, isShellSpecial c = false) : BareWord v v false := by
  induction v with
  | nil => exact .nil
  | cons c r ih =>
    obtain ⟨hblank, hb, hq⟩ := plain_of_not_shellSpecial (hv c List.mem_cons_self)
    exact .plain hblank hb hq (ih fun e he ↦ hv e (List.mem_cons_of_mem _ he))

/-- The value of a quoted token is what the quoted scanner reads after the opening quote. -/
theorem readToken_value_quoted (hq : isQuoteChar c = true) (pos : Nat) (r : List Char) :
    (readToken pos c r).1.value = String.ofList (scanQuoted c r).value := by
  simp [readToken, hq]

/-- A value without the quote `q` put between two `q`s is read back as itself exactly when
it keeps its backslashes, and then the text after the closing quote is left. -/
theorem readToken_between_quotes (hq : isQuoteChar q = true) (hv : q ∉ v) (pos : Nat)
    (ctx : List Char) :
    ((readToken pos q (v ++ q :: ctx)).1.value = String.ofList v ↔ keepsBackslashes v = true) ∧
      (keepsBackslashes v = true → (readToken pos q (v ++ q :: ctx)).2 = ctx) := by
  have hbq : '\\' ≠ q := by rintro rfl; simp at hq
  have hsplit : v ++ q :: ctx = (v ++ [q]) ++ ctx := by simp
  refine ⟨⟨fun h ↦ ?_, fun hkeep ↦ ?_⟩, fun hkeep ↦ ?_⟩
  · rw [readToken_value_quoted hq, String.ofList_inj] at h
    exact keepsBackslashes_of_scanQuoted _ v ctx rfl hv h
  · rw [hsplit, readToken_quoted hq (quotedBody_plain hbq hv hkeep)]
  · rw [hsplit, readToken_quoted hq (quotedBody_plain hbq hv hkeep)]

/-- A value written on a command line before a blank or the end of the line is read back as
itself exactly when it reads back, and then the blank or the end of the line is left. -/
theorem readToken_quoteValue (v : List Char) (pos : Nat) {ctx : List Char} (hctx : EndsWord ctx) :
    ∃ c xs, quoteValue v = c :: xs ∧ ¬(c = ' ' ∨ c = '\t') ∧
      ((readToken pos c (xs ++ ctx)).1.value = String.ofList v ↔ readsBack v = true) ∧
      (readsBack v = true → (readToken pos c (xs ++ ctx)).2 = ctx) := by
  by_cases hn : needsQuoting v = true
  · by_cases hboth : '"' ∈ v ∧ '\'' ∈ v
    · have hback : readsBack v = true := by simp [readsBack, hboth]
      refine ⟨'"', escapeDouble v ++ ['"'], by simp [quoteValue, hn, hboth], by decide,
        ?_, fun _ ↦ ?_⟩
      · rw [readToken_quoted rfl (quotedBody_escapeDouble v)]
        simp [hback]
      · rw [readToken_quoted rfl (quotedBody_escapeDouble v)]
    · obtain ⟨q, hq, hv, hquote, hback⟩ : ∃ q, isQuoteChar q = true ∧ q ∉ v ∧
          quoteValue v = q :: (v ++ [q]) ∧ readsBack v = keepsBackslashes v := by
        by_cases hd : '"' ∈ v
        · have hs : '\'' ∉ v := fun hs ↦ hboth ⟨hd, hs⟩
          exact ⟨'\'', rfl, hs, by simp [quoteValue, hn, hd, hs], by simp [readsBack, hn, hs]⟩
        · exact ⟨'"', rfl, hd, by simp [quoteValue, hn, hd], by simp [readsBack, hn, hd]⟩
      obtain ⟨hval, hrest⟩ := readToken_between_quotes hq hv pos ctx
      refine ⟨q, v ++ [q], hquote, ?_, ?_, ?_⟩
      · rintro (rfl | rfl) <;> simp at hq
      · rw [List.append_assoc, List.singleton_append, hval, hback]
      · rw [hback, List.append_assoc, List.singleton_append]
        exact hrest
  · obtain ⟨hne, hspecial⟩ : v ≠ [] ∧ ∀ c ∈ v, isShellSpecial c = false := by
      simpa [needsQuoting] using hn
    obtain ⟨c, xs, rfl⟩ := List.exists_cons_of_ne_nil hne
    obtain ⟨hblank, -, hq⟩ := plain_of_not_shellSpecial (hspecial c List.mem_cons_self)
    have hback : readsBack (c :: xs) = true := by simp [readsBack, hn]
    refine ⟨c, xs, by simp [quoteValue, hn], hblank, ?_, fun _ ↦ ?_⟩
    · rw [readToken_bare hq (bareWord_self hspecial) hctx]
      simp [hback]
    · rw [readToken_bare hq (bareWord_self hspecial) hctx]

/-- The tokens of a value written on a command line before a blank or the end of the line:
the first has the value exactly when the value reads back, and then the others are the
tokens of the text after it. -/
theorem tokensFrom_quoteValue (v : List Char) {ctx : List Char} (hctx : EndsWord ctx)
    (pos : Nat) :
    ∃ t ts, tokensFrom pos (quoteValue v ++ ctx) = t :: ts ∧
      (t.value = String.ofList v ↔ readsBack v = true) ∧
      (readsBack v = true → ∃ pos', ts = tokensFrom pos' ctx) := by
  obtain ⟨c, xs, hquote, hc, hval, hrest⟩ := readToken_quoteValue v pos hctx
  let p := readToken pos c (xs ++ ctx)
  have htok : tokensFrom pos (quoteValue v ++ ctx) = p.1 :: tokensFrom p.1.stop p.2 := by
    rw [hquote, List.cons_append, tokensFrom_word hc]
  exact ⟨_, _, htok, hval, fun hv ↦ ⟨p.1.stop, by rw [hrest hv]⟩⟩

/-- Values written on a command line and joined by single spaces are read back as
themselves exactly when each of them reads back. -/
theorem tokensFrom_join_quoteValue (vs : List (List Char)) (pos : Nat) :
    (tokensFrom pos (Text.join [' '] (vs.map quoteValue))).map Token.value =
        vs.map String.ofList ↔ ∀ v ∈ vs, readsBack v = true := by
  induction vs generalizing pos with
  | nil => simp
  | cons v vs ih =>
    obtain ⟨ctx, hjoin, hctx, hrest⟩ : ∃ ctx,
        Text.join [' '] ((v :: vs).map quoteValue) = quoteValue v ++ ctx ∧ EndsWord ctx ∧
          ∀ pos', ((tokensFrom pos' ctx).map Token.value = vs.map String.ofList ↔
            ∀ w ∈ vs, readsBack w = true) := by
      cases vs with
      | nil => exact ⟨[], by simp, trivial, by simp⟩
      | cons w ws =>
        refine ⟨' ' :: Text.join [' '] ((w :: ws).map quoteValue), ?_, by simp, fun pos' ↦ ?_⟩
        · simp [Text.join_cons_cons]
        · rw [tokensFrom_blank (.inl rfl)]
          exact ih _
    obtain ⟨t, ts, htok, hval, hts⟩ := tokensFrom_quoteValue v hctx pos
    rw [hjoin, htok, List.map_cons, List.map_cons, List.cons.injEq, List.forall_mem_cons]
    by_cases hv : readsBack v = true
    · obtain ⟨pos', rfl⟩ := hts hv
      rw [hval.mpr hv, hrest pos']
      simp [hv]
    · have hne : t.value ≠ String.ofList v := fun h ↦ hv (hval.mp h)
      simp [hne, hv]

end Command

end Tokenize

/-- A command line rebuilt from tokens is read back as tokens with the same values, in the
same order, exactly when each value reads back: it needs no quotes, or holds both kinds of
quote, or keeps its backslashes between plain quotes. -/
theorem tokenize_rebuildCommand_values (ts : List Token) :
    (tokenize (rebuildCommand ts)).map Token.value = ts.map Token.value ↔
      ∀ t ∈ ts, readsBack t.value.toList = true := by
  have h := Tokenize.tokensFrom_join_quoteValue (ts.map fun t ↦ t.value.toList) 0
  simpa [tokenize, rebuildCommand, List.map_map, Function.comp_def] using h

end FlagLine
