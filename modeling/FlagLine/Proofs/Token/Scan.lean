import FlagLine.Token.Basic
/-!
# What the token scanners read

The two scanners of the tokenizer look one character ahead at each backslash. The texts that
they read in full are described here by two grammars: a quoted body is a run of plain
characters, escapes and lone backslashes closed by its quote, and a bare word is a run of plain
characters, escapes, lone backslashes and closed quoted sections. A scanner that meets a text
of its grammar reads all of it and nothing after it, whatever follows (for a bare word, whatever
blank or end follows); a scan that stops before the end of its input has read such a text.
Together the two facts say that a word keeps its reading when it is moved to another line.
-/

namespace FlagLine.Tokenize

/-- What may follow an unquoted word: the end of the line or a blank. -/
def EndsWord : List Char → Prop
  | [] => True
  | c :: _ => c = ' ' ∨ c = '\t'

@[simp]
theorem endsWord_nil : EndsWord [] := trivial

@[simp]
theorem endsWord_cons (c : Char) (r : List Char) : EndsWord (c :: r) ↔ c = ' ' ∨ c = '\t' :=
  Iff.rfl

/-! ## Quoted sections -/

section Quoted

variable {q c d : Char} {r : List Char}

@[simp]
theorem scanQuoted_quote (q : Char) (r : List Char) : scanQuoted q (q :: r) = ⟨[], r, false⟩ := by
  rw [scanQuoted.eq_def]; simp

theorem scanQuoted_escape (hq : '\\' ≠ q) (hd : d = q ∨ d = '\\') :
    scanQuoted q ('\\' :: d :: r) = (scanQuoted q r).cons d := by
  rw [scanQuoted.eq_def]; simp [hq, hd]

theorem scanQuoted_lone (hq : '\\' ≠ q) (hd : ¬(d = q ∨ d = '\\')) :
    scanQuoted q ('\\' :: d :: r) = (scanQuoted q (d :: r)).cons '\\' := by
  rw [scanQuoted.eq_def]; simp only [hq, if_false, if_true, hd]

theorem scanQuoted_plain (hc : c ≠ q) (hb : c ≠ '\\') :
    scanQuoted q (c :: r) = (scanQuoted q r).cons c := by
  rw [scanQuoted.eq_def]; simp [hc, hb]

end Quoted

/-- The text after an opening quote `q` that the quoted scanner reads up to and including the
closing quote, and the value it reads. A backslash escapes a following `q` or backslash and
otherwise stands for itself. -/
inductive QuotedBody (q : Char) : List Char → List Char → Prop
  | close : QuotedBody q [q] []
  | escape {d : Char} {xs v : List Char} : '\\' ≠ q → (d = q ∨ d = '\\') →
      QuotedBody q xs v → QuotedBody q ('\\' :: d :: xs) (d :: v)
  | lone {d : Char} {xs v : List Char} : '\\' ≠ q → ¬(d = q ∨ d = '\\') →
      QuotedBody q (d :: xs) v → QuotedBody q ('\\' :: d :: xs) ('\\' :: v)
  | plain {c : Char} {xs v : List Char} : c ≠ q → c ≠ '\\' →
      QuotedBody q xs v → QuotedBody q (c :: xs) (c :: v)

/-- A closed quoted body is read in full and nothing after it is read. -/
theorem QuotedBody.scan {q : Char} {xs v : List Char} (h : QuotedBody q xs v)
    (ys : List Char) : scanQuoted q (xs ++ ys) = ⟨v, ys, false⟩ := by
  induction h with
  | close => simp
  | escape hq hd _ ih => rw [List.cons_append, List.cons_append, scanQuoted_escape hq hd, ih]; rfl
  | lone hq hd _ ih =>
    rw [List.cons_append, List.cons_append, scanQuoted_lone hq hd, ← List.cons_append, ih]; rfl
  | plain hc hb _ ih => rw [List.cons_append, scanQuoted_plain hc hb, ih]; rfl

theorem QuotedBody.ne_nil {q : Char} {xs v : List Char} (h : QuotedBody q xs v) : xs ≠ [] := by
  cases h <;> simp

theorem QuotedBody.getLast? {q : Char} {xs v : List Char} (h : QuotedBody q xs v) :
    xs.getLast? = some q := by
  induction h with
  | close => rfl
  | escape _ _ h ih => simp [List.getLast?_cons, ih]
  | lone _ _ _ ih => rw [List.getLast?_cons, ih]; rfl
  | plain _ _ h ih => simp [List.getLast?_cons, ih]

/-- A quoted scan either reads a closed body and leaves the text after it, or runs to the end
of its input. -/
theorem scanQuoted_body_or_end (q : Char) (cs : List Char) :
    (∃ xs, cs = xs ++ (scanQuoted q cs).rest ∧ QuotedBody q xs (scanQuoted q cs).value) ∨
      (scanQuoted q cs).rest = [] := by
  fun_induction scanQuoted q cs with
  | case1 => exact .inr rfl
  | case2 r => exact .inl ⟨[q], rfl, .close⟩
  | case3 => exact .inr rfl
  | case4 d r hd hq ih =>
    rcases ih with ⟨xs, hr, hxs⟩ | hnil
    · exact .inl ⟨'\\' :: d :: xs, by simp [← hr], .escape hq hd hxs⟩
    · exact .inr hnil
  | case5 d r hd hq ih =>
    rcases ih with ⟨xs, hr, hxs⟩ | hnil
    · obtain ⟨x, xs', rfl⟩ := List.exists_cons_of_ne_nil hxs.ne_nil
      obtain ⟨rfl, -⟩ := List.cons_eq_cons.mp (hr.trans (List.cons_append ..))
      exact .inl ⟨'\\' :: d :: xs', by simp [← hr], .lone hq hd hxs⟩
    · exact .inr hnil
  | case6 c r hc hb ih =>
    rcases ih with ⟨xs, hr, hxs⟩ | hnil
    · exact .inl ⟨c :: xs, by simp [← hr], .plain hc hb hxs⟩
    · exact .inr hnil

theorem scanQuoted_suffix (q : Char) (cs : List Char) :
    ∃ xs, cs = xs ++ (scanQuoted q cs).rest := by
  rcases scanQuoted_body_or_end q cs with ⟨xs, h, -⟩ | h
  · exact ⟨xs, h⟩
  · exact ⟨cs, by simp [h]⟩

/-! ## Unquoted words -/

section Bare

variable {c d : Char} {r : List Char}

theorem scanBare_blank (hc : c = ' ' ∨ c = '\t') : scanBare (c :: r) = ⟨[], c :: r, false⟩ := by
  rw [scanBare.eq_def]; simp [hc]

@[simp]
theorem scanBare_backslash_nil : scanBare ['\\'] = ⟨['\\'], [], false⟩ := by
  rw [scanBare.eq_def]; simp

theorem scanBare_escape (hd : isBareEscape d = true) :
    scanBare ('\\' :: d :: r) = (scanBare r).cons d := by
  rw [scanBare.eq_def]; simp [hd]

theorem scanBare_lone (hd : isBareEscape d = false) :
    scanBare ('\\' :: d :: r) = (scanBare (d :: r)).cons '\\' := by
  rw [scanBare.eq_def]; simp [hd]

theorem scanBare_quote (hc : isQuoteChar c = true) :
    scanBare (c :: r) = (scanBare (scanQuoted c r).rest).afterSection (scanQuoted c r).value := by
  have hc' : c = '"' ∨ c = '\'' := by simpa using hc
  rcases hc' with rfl | rfl <;> (rw [scanBare.eq_def]; simp)

theorem scanBare_plain (hc : ¬(c = ' ' ∨ c = '\t')) (hb : c ≠ '\\') (hq : isQuoteChar c = false) :
    scanBare (c :: r) = (scanBare r).cons c := by
  rw [scanBare.eq_def]; simp only [hc, hb, hq, if_false]; rfl

end Bare

/-- An unquoted word that the bare scanner reads to its end, with its value and whether it
holds a quoted section: a run of plain characters, escapes, backslashes before a plain
character, and closed quoted sections. -/
inductive BareWord : List Char → List Char → Bool → Prop
  | nil : BareWord [] [] false
  | plain {c : Char} {xs v : List Char} {b : Bool} : ¬(c = ' ' ∨ c = '\t') → c ≠ '\\' →
      isQuoteChar c = false → BareWord xs v b → BareWord (c :: xs) (c :: v) b
  | escape {d : Char} {xs v : List Char} {b : Bool} : isBareEscape d = true →
      BareWord xs v b → BareWord ('\\' :: d :: xs) (d :: v) b
  | lone {d : Char} {xs v : List Char} {b : Bool} : isBareEscape d = false →
      BareWord (d :: xs) v b → BareWord ('\\' :: d :: xs) ('\\' :: v) b
  | quoted {q : Char} {ys w xs v : List Char} {b : Bool} : isQuoteChar q = true →
      QuotedBody q ys w → BareWord xs v b → BareWord (q :: (ys ++ xs)) (w ++ v) true

/-- A bare word is read in full when a blank or the end of the line follows it. -/
theorem BareWord.scan {xs v : List Char} {b : Bool} (h : BareWord xs v b) {ys : List Char}
    (hys : EndsWord ys) : scanBare (xs ++ ys) = ⟨v, ys, b⟩ := by
  induction h with
  | nil =>
    cases ys with
    | nil => rw [scanBare.eq_def]; rfl
    | cons c r => exact scanBare_blank hys
  | plain hc hb hq _ ih => rw [List.cons_append, scanBare_plain hc hb hq, ih]; rfl
  | escape hd _ ih => rw [List.cons_append, List.cons_append, scanBare_escape hd, ih]; rfl
  | lone hd _ ih =>
    rw [List.cons_append, List.cons_append, scanBare_lone hd, ← List.cons_append, ih]; rfl
  | quoted hq hbody _ ih =>
    rw [List.cons_append, scanBare_quote hq, List.append_assoc, hbody.scan, ih]; rfl

theorem BareWord.value_eq_of_plain {xs v : List Char} {b : Bool} (h : BareWord xs v b)
    (hp : ∀ e ∈ xs, e ≠ '\\' ∧ isQuoteChar e = false) : v = xs := by
  induction h with
  | nil => rfl
  | plain _ _ _ _ ih => rw [ih fun e he ↦ hp e (List.mem_cons_of_mem _ he)]
  | escape => exact absurd rfl (hp '\\' (by simp)).1
  | lone => exact absurd rfl (hp '\\' (by simp)).1
  | quoted hq => simp [(hp _ List.mem_cons_self).2] at hq

/-- A bare scan stops at a blank or at the end of the line. It has either read a bare word,
or run off the end of the line inside a quoted section or after a final backslash. -/
theorem scanBare_word_or_end (cs : List Char) :
    EndsWord (scanBare cs).rest ∧
      ((∃ xs, cs = xs ++ (scanBare cs).rest ∧
          BareWord xs (scanBare cs).value (scanBare cs).quoted) ∨
        ((scanBare cs).rest = [] ∧ ∃ c ∈ cs, c = '\\' ∨ isQuoteChar c = true)) := by
  fun_induction scanBare cs with
  | case1 => exact ⟨trivial, .inl ⟨[], rfl, .nil⟩⟩
  | case2 c r hc => exact ⟨hc, .inl ⟨[], rfl, .nil⟩⟩
  | case3 => exact ⟨trivial, .inr ⟨rfl, '\\', by simp⟩⟩
  | case4 d r hd _ ih =>
    obtain ⟨hend, ⟨xs, hr, hw⟩ | ⟨hnil, -⟩⟩ := ih
    · exact ⟨hend, .inl ⟨'\\' :: d :: xs, by simp [← hr], .escape hd hw⟩⟩
    · exact ⟨hend, .inr ⟨hnil, '\\', by simp⟩⟩
  | case5 d r hd _ ih =>
    obtain ⟨hend, ⟨xs, hr, hw⟩ | ⟨hnil, -⟩⟩ := ih
    · rcases xs with _ | ⟨x, xs'⟩
      · rw [List.nil_append] at hr
        rw [← hr, endsWord_cons] at hend
        exact absurd (by rcases hend with rfl | rfl <;> rfl) hd
      · obtain ⟨rfl, hr'⟩ := List.cons_eq_cons.mp (hr.trans (List.cons_append ..))
        refine ⟨hend, .inl ⟨'\\' :: d :: xs', ?_, .lone (by simpa using hd) hw⟩⟩
        simp only [Scan.rest_cons, List.cons_append]
        rw [← hr']
    · exact ⟨hend, .inr ⟨hnil, '\\', by simp⟩⟩
  | case6 c r _ _ hq ih =>
    obtain ⟨hend, hword⟩ := ih
    refine ⟨hend, ?_⟩
    rcases scanQuoted_body_or_end c r with ⟨ys, hys, hbody⟩ | hopen
    · rcases hword with ⟨xs, hr, hw⟩ | ⟨hnil, -⟩
      · refine .inl ⟨c :: (ys ++ xs), ?_, .quoted hq hbody hw⟩
        simp only [Scan.rest_afterSection, List.cons_append, List.append_assoc]
        rw [← hr, ← hys]
      · exact .inr ⟨hnil, c, by simp [hq]⟩
    · simp only [hopen, scanBare.eq_1] at hword ⊢
      exact .inr ⟨rfl, c, by simp [hq]⟩
  | case7 c r hc hb hq ih =>
    obtain ⟨hend, ⟨xs, hr, hw⟩ | ⟨hnil, e, he, hspecial⟩⟩ := ih
    · exact ⟨hend, .inl ⟨c :: xs, by simp [← hr], .plain hc hb (by simpa using hq) hw⟩⟩
    · exact ⟨hend, .inr ⟨hnil, e, List.mem_cons_of_mem c he, hspecial⟩⟩

/-- A bare scan from a character that is no blank either reads a bare word from that
character on, or runs off the end of the line. -/
theorem scanBare_cons_word_or_end {c : Char} (hc : ¬(c = ' ' ∨ c = '\t')) (r : List Char) :
    (∃ ys, r = ys ++ (scanBare (c :: r)).rest ∧
        BareWord (c :: ys) (scanBare (c :: r)).value (scanBare (c :: r)).quoted ∧
        EndsWord (scanBare (c :: r)).rest) ∨
      ((scanBare (c :: r)).rest = [] ∧ ∃ e ∈ c :: r, e = '\\' ∨ isQuoteChar e = true) := by
  obtain ⟨hend, hword⟩ := scanBare_word_or_end (c :: r)
  rcases hword with ⟨xs, hxs, hw⟩ | hopen
  · rcases xs with _ | ⟨x, ys⟩
    · rw [List.nil_append] at hxs
      rw [← hxs, endsWord_cons] at hend
      exact absurd hend hc
    · obtain ⟨rfl, hr⟩ := List.cons_eq_cons.mp (hxs.trans (List.cons_append ..))
      exact .inl ⟨ys, hr, hw, hend⟩
  · exact .inr hopen

/-! ## Reading one token -/

/-- The part of a text before a given suffix, as the tokenizer cuts it. -/
theorem take_of_eq_append {cs xs rest : List Char} (h : cs = xs ++ rest) :
    cs.take (cs.length - rest.length) = xs := by
  subst h; simp

section Read

variable {pos : Nat} {c : Char} {r ys v : List Char}

@[simp]
theorem readToken_start (pos : Nat) (c : Char) (r : List Char) :
    (readToken pos c r).1.start = pos := by
  unfold readToken; split <;> rfl

theorem readToken_stop (pos : Nat) (c : Char) (r : List Char) :
    (readToken pos c r).1.stop = pos + (readToken pos c r).1.raw.length := by
  unfold readToken; split <;> simp

/-- A token that opens with a quote and closes it, read at any position. -/
theorem readToken_quoted (hq : isQuoteChar c = true) (hbody : QuotedBody c ys v)
    (rest : List Char) :
    readToken pos c (ys ++ rest) = (⟨String.ofList v, pos, pos + (ys.length + 1),
      if c = '"' then .double else .single, String.ofList (c :: ys)⟩, rest) := by
  have hraw : (c :: (ys ++ rest)).take ((c :: (ys ++ rest)).length - rest.length) = c :: ys :=
    take_of_eq_append (List.cons_append ..).symm
  simp only [readToken, hq, if_true, hbody.scan, hraw]
  rfl

/-- An unquoted token read to a blank or the end of the line, at any position. -/
theorem readToken_bare {b : Bool} (hq : isQuoteChar c = false) (hw : BareWord (c :: ys) v b)
    {rest : List Char} (hrest : EndsWord rest) :
    readToken pos c (ys ++ rest) = (⟨String.ofList v, pos, pos + (ys.length + 1),
      if b then (if (c :: ys).contains '"' then .double else .single) else .none,
      String.ofList (c :: ys)⟩, rest) := by
  have hscan : scanBare (c :: (ys ++ rest)) = ⟨v, rest, b⟩ := hw.scan hrest
  have hraw : (c :: (ys ++ rest)).take ((c :: (ys ++ rest)).length - rest.length) = c :: ys :=
    take_of_eq_append (List.cons_append ..).symm
  simp only [readToken, hq, Bool.false_eq_true, if_false, hscan, hraw]
  rfl

/-- The token read from `c :: r` starts with `c`, and what is left after it is the rest of
`r`. -/
theorem readToken_raw (hc : ¬(c = ' ' ∨ c = '\t')) (pos : Nat) (r : List Char) :
    ∃ xs, (readToken pos c r).1.raw.toList = c :: xs ∧ r = xs ++ (readToken pos c r).2 := by
  unfold readToken
  split
  · obtain ⟨xs, hxs⟩ := scanQuoted_suffix c r
    refine ⟨xs, ?_, hxs⟩
    simpa using take_of_eq_append ((congrArg (c :: ·) hxs).trans (List.cons_append ..).symm)
  · rcases scanBare_cons_word_or_end hc r with ⟨xs, hxs, -, -⟩ | ⟨hnil, -⟩
    · refine ⟨xs, ?_, hxs⟩
      simpa using take_of_eq_append ((congrArg (c :: ·) hxs).trans (List.cons_append ..).symm)
    · exact ⟨r, by simp [hnil], by simp [hnil]⟩

/-- What a token can be: a quoted token closed by its quote, an unquoted word followed by a
blank or the end of the line, or a token that runs to the end of the line inside a quoted
section or after a final backslash. -/
theorem readToken_cases (hc : ¬(c = ' ' ∨ c = '\t')) (pos : Nat) (r : List Char) :
    (∃ ys v rest, isQuoteChar c = true ∧ QuotedBody c ys v ∧ r = ys ++ rest) ∨
    (∃ ys v b rest, isQuoteChar c = false ∧ BareWord (c :: ys) v b ∧ EndsWord rest ∧
      r = ys ++ rest) ∨
    ((readToken pos c r).2 = [] ∧ ∃ e ∈ c :: r, e = '\\' ∨ isQuoteChar e = true) := by
  cases hq : isQuoteChar c
  · rcases scanBare_cons_word_or_end hc r with ⟨ys, hys, hw, hend⟩ | ⟨hnil, hspecial⟩
    · exact .inr (.inl ⟨ys, _, _, _, rfl, hw, hend, hys⟩)
    · exact .inr (.inr ⟨by simp [readToken, hq, hnil], hspecial⟩)
  · rcases scanQuoted_body_or_end c r with ⟨ys, hys, hbody⟩ | hopen
    · exact .inl ⟨ys, _, _, rfl, hbody, hys⟩
    · exact .inr (.inr ⟨by simp [readToken, hq, hopen], c, by simp, .inr hq⟩)

/-- Reading the same text at another position moves the token and changes nothing else. -/
theorem readToken_move (pos pos' : Nat) (c : Char) (r : List Char) :
    readToken pos' c r = ({(readToken pos c r).1 with
      start := pos', stop := pos' + (readToken pos c r).1.raw.length }, (readToken pos c r).2) := by
  unfold readToken; split <;> simp

end Read

end FlagLine.Tokenize
