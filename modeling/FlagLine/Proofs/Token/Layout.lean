import Mathlib.Data.List.Chain
import FlagLine.Proofs.Token.Scan
/-!
# Where the words of a command line lie

The words that the tokenizer reads from a line lie in its text in order: each spans a
nonempty stretch of the text whose characters are its raw text, the characters between and
around them are blanks, and a word can touch the next only when it is a quoted token closed
by its quote. A word without quotes and backslashes is its own value. The text is then the
words' raw texts with the blanks between them, which `replaceSpans` states: the text with
each span replaced by a given text. Main statement: `tokenize_layout`.
-/

namespace FlagLine.Tokenize

/-- The text `cs` from position `pos` on, with the span of each word replaced by the text
paired with it; what lies between and after the words is kept. -/
def replaceSpans (cs : List Char) (pos : Nat) : List (Token × List Char) → List Char
  | [] => cs.drop pos
  | (t, w) :: rest => (cs.drop pos).take (t.start - pos) ++ w ++ replaceSpans cs t.stop rest

/-- A text that opens with a quote and is closed by the same quote. -/
def ClosedQuote (raw : List Char) : Prop :=
  ∃ q body, isQuoteChar q = true ∧ raw = q :: (body ++ [q])

/-! ## One step of the tokenizer -/

section Steps

variable {pos : Nat} {c : Char} {r : List Char}

@[simp]
theorem tokensFrom_nil (pos : Nat) : tokensFrom pos [] = [] := by
  rw [tokensFrom.eq_def]

theorem tokensFrom_blank (hc : c = ' ' ∨ c = '\t') :
    tokensFrom pos (c :: r) = tokensFrom (pos + 1) r := by
  rw [tokensFrom.eq_def]; simp [hc]

theorem tokensFrom_word (hc : ¬(c = ' ' ∨ c = '\t')) :
    tokensFrom pos (c :: r) =
      (readToken pos c r).1 :: tokensFrom (readToken pos c r).1.stop (readToken pos c r).2 := by
  rw [tokensFrom.eq_def]; simp only [hc, dite_false]

end Steps

theorem start_ge_of_mem_tokensFrom (pos : Nat) (cs : List Char) :
    ∀ t ∈ tokensFrom pos cs, pos ≤ t.start := by
  fun_induction tokensFrom pos cs with
  | case1 pos => simp
  | case2 pos c r _ ih => exact fun t ht ↦ Nat.le_of_succ_le (ih t ht)
  | case3 pos c r _ p ih =>
    intro t ht
    rcases List.mem_cons.mp ht with rfl | ht
    · simp [p]
    · have := ih t ht
      rw [readToken_stop] at this
      omega

/-- A word that starts right where reading starts is read from a character that is no blank. -/
theorem tokensFrom_head_start {pos : Nat} {cs : List Char} {u : Token} {us : List Token}
    (h : tokensFrom pos cs = u :: us) (hu : u.start = pos) :
    ∃ e r, cs = e :: r ∧ ¬(e = ' ' ∨ e = '\t') := by
  rcases cs with _ | ⟨e, r⟩
  · simp at h
  · by_cases he : e = ' ' ∨ e = '\t'
    · rw [tokensFrom_blank he] at h
      have := start_ge_of_mem_tokensFrom (pos + 1) r u (by simp [h])
      omega
    · exact ⟨e, r, rfl, he⟩

/-! ## Facts about one word -/

section Word

variable {pos : Nat} {c : Char} {r : List Char}

/-- A word followed directly by more text, with no blank between, is a closed quoted token. -/
theorem readToken_glued (hc : ¬(c = ' ' ∨ c = '\t')) {e : Char} {r' : List Char}
    (hrest : (readToken pos c r).2 = e :: r') (he : ¬(e = ' ' ∨ e = '\t')) :
    ClosedQuote (readToken pos c r).1.raw.toList := by
  rcases readToken_cases hc pos r with
    ⟨ys, v, rest, hq, hbody, rfl⟩ | ⟨ys, v, b, rest, hq, hw, hend, rfl⟩ | ⟨hnil, -⟩
  · rw [readToken_quoted hq hbody, String.toList_ofList]
    obtain ⟨body, rfl⟩ := List.getLast?_eq_some_iff.mp hbody.getLast?
    exact ⟨c, body, hq, rfl⟩
  · rw [readToken_bare hq hw hend] at hrest
    subst hrest
    exact absurd hend he
  · simp [hnil] at hrest

theorem readToken_value_eq_raw (hc : ¬(c = ' ' ∨ c = '\t'))
    (hp : ∀ e ∈ (readToken pos c r).1.raw.toList, e ≠ '\\' ∧ isQuoteChar e = false) :
    (readToken pos c r).1.value = (readToken pos c r).1.raw := by
  obtain ⟨xs, hraw, hr⟩ := readToken_raw hc pos r
  have hhead := (hp c (by simp [hraw])).2
  rcases readToken_cases hc pos r with
    ⟨ys, v, rest, hq, -, -⟩ | ⟨ys, v, b, rest, hq, hw, hend, rfl⟩ | ⟨hnil, e, he, hspecial⟩
  · exact absurd hq (by simp [hhead])
  · rw [readToken_bare hq hw hend] at hp ⊢
    simp only [String.toList_ofList] at hp
    exact congrArg String.ofList (hw.value_eq_of_plain hp)
  · rw [hnil, List.append_nil] at hr
    subst hr
    rw [← hraw] at he
    have := hp e he
    rcases hspecial with h | h <;> simp_all

end Word

/-! ## The layout of a line -/

/-- How the words `ts` read from position `pos` on lie in the text `cs`. -/
structure Layout (cs : List Char) (pos : Nat) (ts : List Token) : Prop where
  start_ge : ∀ t ∈ ts, pos ≤ t.start
  start_lt_stop : ∀ t ∈ ts, t.start < t.stop
  stop_le_start : ts.IsChain fun a b ↦ a.stop ≤ b.start
  stop_le_length : ∀ t ∈ ts, t.stop ≤ cs.length
  raw_eq_slice : ∀ t ∈ ts, t.raw.toList = (cs.drop t.start).take (t.stop - t.start)
  /-- Every character outside the words is a blank. -/
  blank_of_outside : ∀ i (hi : i < cs.length), pos ≤ i →
    (∀ t ∈ ts, ¬(t.start ≤ i ∧ i < t.stop)) → cs[i] = ' ' ∨ cs[i] = '\t'
  raw_head : ∀ t ∈ ts, ∃ c xs, t.raw.toList = c :: xs ∧ ¬(c = ' ' ∨ c = '\t')
  /-- A word touches the next only when it is a closed quoted token. -/
  closedQuote_of_touch : ts.IsChain fun a b ↦ a.stop = b.start → ClosedQuote a.raw.toList
  value_eq_raw : ∀ t ∈ ts, (∀ c ∈ t.raw.toList, c ≠ '\\' ∧ isQuoteChar c = false) →
    t.value = t.raw
  /-- The text is the raw texts of the words with what lies around them. -/
  spells : replaceSpans cs pos (ts.map fun t ↦ (t, t.raw.toList)) = cs.drop pos

namespace Layout

variable {cs : List Char} {pos : Nat}

theorem nil (h : cs.drop pos = []) : Layout cs pos [] where
  start_ge := by simp
  start_lt_stop := by simp
  stop_le_start := .nil
  stop_le_length := by simp
  raw_eq_slice := by simp
  blank_of_outside i hi hpos _ := by
    rw [List.drop_eq_nil_iff] at h
    omega
  raw_head := by simp
  closedQuote_of_touch := .nil
  value_eq_raw := by simp
  spells := rfl

theorem replaceSpans_cons {d : Char} {r : List Char} (hd : cs.drop pos = d :: r)
    {ws : List (Token × List Char)} (hws : ∀ w ∈ ws.head?, pos + 1 ≤ w.1.start) :
    replaceSpans cs pos ws = d :: replaceSpans cs (pos + 1) ws := by
  have hr : cs.drop (pos + 1) = r := by rw [← List.drop_drop, hd]; rfl
  cases ws with
  | nil => simp [replaceSpans, hd, hr]
  | cons w ws =>
    obtain ⟨t, x⟩ := w
    have hlt : pos + 1 ≤ t.start := hws (t, x) rfl
    have hsub : t.start - pos = t.start - (pos + 1) + 1 := by omega
    simp [replaceSpans, hd, hr, hsub]

theorem blank {ts : List Token} (h : Layout cs (pos + 1) ts) {d : Char} {r : List Char}
    (hd : cs.drop pos = d :: r) (hblank : d = ' ' ∨ d = '\t') : Layout cs pos ts where
  start_ge t ht := Nat.le_of_succ_le (h.start_ge t ht)
  start_lt_stop := h.start_lt_stop
  stop_le_start := h.stop_le_start
  stop_le_length := h.stop_le_length
  raw_eq_slice := h.raw_eq_slice
  blank_of_outside i hi hpos hout := by
    rcases Nat.eq_or_lt_of_le hpos with rfl | hlt
    · rw [List.drop_eq_getElem_cons hi] at hd
      obtain ⟨rfl, -⟩ := List.cons_eq_cons.mp hd
      exact hblank
    · exact h.blank_of_outside i hi hlt hout
  raw_head := h.raw_head
  closedQuote_of_touch := h.closedQuote_of_touch
  value_eq_raw := h.value_eq_raw
  spells := by
    have hhead : ∀ w ∈ (ts.map fun t ↦ (t, t.raw.toList)).head?, pos + 1 ≤ w.1.start := by
      intro w hw
      cases ts with
      | nil => simp at hw
      | cons t ts =>
        rw [List.map_cons, List.head?_cons, Option.mem_some_iff] at hw
        subst hw
        exact h.start_ge t List.mem_cons_self
    rw [replaceSpans_cons hd hhead, h.spells, ← List.drop_drop, hd]
    rfl

/-- A word read at `pos`, in front of the words read after it. -/
theorem word {t : Token} {ts : List Token} (h : Layout cs t.stop ts) (hstart : t.start = pos)
    (hdrop : cs.drop pos = t.raw.toList ++ cs.drop t.stop) (hstop : t.stop = pos + t.raw.length)
    (hhead : ∃ c xs, t.raw.toList = c :: xs ∧ ¬(c = ' ' ∨ c = '\t'))
    (htouch : ∀ u ∈ ts.head?, t.stop = u.start → ClosedQuote t.raw.toList)
    (hvalue : (∀ c ∈ t.raw.toList, c ≠ '\\' ∧ isQuoteChar c = false) → t.value = t.raw) :
    Layout cs pos (t :: ts) where
  start_ge u hu := by
    rcases List.mem_cons.mp hu with rfl | hu
    · exact hstart.ge
    · have := h.start_ge u hu
      omega
  start_lt_stop u hu := by
    rcases List.mem_cons.mp hu with rfl | hu
    · obtain ⟨c, xs, hraw, -⟩ := hhead
      have : u.raw.length = xs.length + 1 := by rw [← String.length_toList, hraw]; rfl
      omega
    · exact h.start_lt_stop u hu
  stop_le_start :=
    List.isChain_cons.mpr ⟨fun u hu ↦ h.start_ge u (List.mem_of_mem_head? hu), h.stop_le_start⟩
  stop_le_length u hu := by
    rcases List.mem_cons.mp hu with rfl | hu
    · obtain ⟨c, xs, hraw, -⟩ := hhead
      have hne : 0 < u.raw.length := by rw [← String.length_toList, hraw]; simp
      have hlen := congrArg List.length hdrop
      simp only [List.length_drop, List.length_append, String.length_toList] at hlen
      omega
    · exact h.stop_le_length u hu
  raw_eq_slice u hu := by
    rcases List.mem_cons.mp hu with rfl | hu
    · rw [hstart, hdrop, hstop, Nat.add_sub_cancel_left, ← String.length_toList, List.take_left]
    · exact h.raw_eq_slice u hu
  blank_of_outside i hi hpos hout := by
    have hafter : t.stop ≤ i := by
      have := hout t List.mem_cons_self
      omega
    exact h.blank_of_outside i hi hafter fun w hw ↦ hout w (List.mem_cons_of_mem _ hw)
  raw_head u hu := by
    rcases List.mem_cons.mp hu with rfl | hu
    · exact hhead
    · exact h.raw_head u hu
  closedQuote_of_touch := List.isChain_cons.mpr ⟨htouch, h.closedQuote_of_touch⟩
  value_eq_raw u hu := by
    rcases List.mem_cons.mp hu with rfl | hu
    · exact hvalue
    · exact h.value_eq_raw u hu
  spells := by
    simp only [List.map_cons, replaceSpans, hstart, Nat.sub_self, List.take_zero, List.nil_append]
    rw [h.spells, hdrop]

end Layout

/-- The words read from position `pos` on, where the text from `pos` on is `r`, lie in the
text as `Layout` says. -/
theorem layout_tokensFrom (cs : List Char) (pos : Nat) (r : List Char) :
    cs.drop pos = r → Layout cs pos (tokensFrom pos r) := by
  fun_induction tokensFrom pos r with
  | case1 pos => exact Layout.nil
  | case2 pos d r hd ih =>
    intro h
    have hnext : cs.drop (pos + 1) = r := by rw [← List.drop_drop, h]; rfl
    exact (ih hnext).blank h hd
  | case3 pos d r hd p ih =>
    intro h
    obtain ⟨xs, hraw, hr⟩ := readToken_raw hd pos r
    have hstop := readToken_stop pos d r
    have hdrop : cs.drop pos = (readToken pos d r).1.raw.toList ++ (readToken pos d r).2 := by
      rw [h, hraw]
      exact congrArg (d :: ·) hr
    have hnext : cs.drop (readToken pos d r).1.stop = (readToken pos d r).2 := by
      rw [hstop, ← List.drop_drop, hdrop, ← String.length_toList, List.drop_left]
    refine (ih hnext).word (readToken_start ..) (by rw [hnext]; exact hdrop) hstop
      ⟨d, xs, hraw, hd⟩ ?_ (readToken_value_eq_raw hd)
    intro u hu htouch
    obtain ⟨us, hus⟩ := List.head?_eq_some_iff.mp hu
    obtain ⟨e, r', hrest, he⟩ := tokensFrom_head_start hus htouch.symm
    exact readToken_glued hd hrest he

/-- The words of a command line lie in order in its text, each a nonempty stretch of it that
starts with no blank, and every character outside them is a blank. A word touches the next
only when it is a quoted token closed by its quote, and a word without quotes and backslashes
is its own value; so the text is the words' raw texts with the blanks around them. -/
theorem tokenize_layout (text : String) : Layout text.toList 0 (tokenize text) :=
  layout_tokensFrom text.toList 0 text.toList rfl

end FlagLine.Tokenize
