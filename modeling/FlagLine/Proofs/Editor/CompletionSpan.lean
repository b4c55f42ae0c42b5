import FlagLine.Editor.Completer
import FlagLine.Proofs.Editor.DuplicatesMode
import FlagLine.Proofs.Token.Layout
/-!
# The text a completion replaces

Every offer of the completer starts back from the cursor by the length of the text that was
completed: the empty text on an empty line or in the blanks, the value of the first word, and
in any other word its value up to the cursor, from its last capture when the cursor is in
it. The text so replaced is the text completed when the word is written as its value and, in
the first word, the cursor is at its end. A quoted or escaped word is completed from its
value while the offer counts back over its raw text, and the first word is completed whole
wherever the cursor is in it. Main statement: `Completer.complete_replaces_typed`.
-/

namespace FlagLine

namespace Tokenize

theorem stop_le_last {ts : List Token} (hchain : ts.IsChain fun a b ↦ a.stop ≤ b.start)
    (hlt : ∀ t ∈ ts, t.start < t.stop) {last : Token} (hlast : ts.getLast? = some last) :
    ∀ t ∈ ts, t.stop ≤ last.stop := by
  induction ts with
  | nil => simp at hlast
  | cons a rest ih =>
    intro t ht
    cases rest with
    | nil =>
      simp only [List.getLast?_singleton, Option.some.injEq] at hlast
      simp only [List.mem_singleton] at ht
      rw [ht, hlast]
    | cons b rest' =>
      rw [List.isChain_cons_cons] at hchain
      have ih' := ih hchain.2 (fun u hu ↦ hlt u (List.mem_cons_of_mem _ hu))
        (by simpa [List.getLast?_cons_cons] using hlast)
      rcases List.mem_cons.1 ht with rfl | ht
      · have hb := hlt b (by simp)
        have := ih' b List.mem_cons_self
        omega
      · exact ih' t ht

end Tokenize

namespace Completer

/-- The word under the cursor, if any, is written as its value, and when it is the first word
the cursor is at its end. -/
def WordAsTyped (text : String) (cursor : Nat) : Prop :=
  ∀ t i, wordAt (tokenize text) cursor = some (t, i) → t.value = t.raw ∧ (i = 0 → cursor = t.stop)

/-! ## Where offers start -/

theorem fromValidator_startPosition {v : Option Validator} {h : Host} {p : String}
    {cs : List Completion} (hv : fromValidator v h p = .ok cs) :
    ∀ c ∈ cs, c.startPosition = -(p.length : Int) := by
  unfold fromValidator at hv
  cases v with
  | none =>
    cases hv
    simp
  | some v =>
    dsimp only at hv
    cases hr : v.completions h [("cwd", .str h.cwdText)] p with
    | error err =>
      rw [hr] at hv
      cases hv
    | ok r =>
      rw [hr] at hv
      cases hv
      simp

theorem offers_of_values {v : Option Validator} {h : Host} {typed : String} {offers : Offers}
    (hok : (fromValidator v h typed >>= fun cs ↦ pure (Offers.values cs)) = .ok offers) :
    ∃ v' cs, offers = .values cs ∧ fromValidator v' h typed = .ok cs := by
  obtain ⟨cs, hv, hok⟩ := Except.bind_eq_ok hok
  cases hok
  exact ⟨v, cs, rfl, hv⟩

theorem programs_startPosition (c : Config) (h : Host) (typed : String) :
    ∀ comp ∈ programs c h typed, comp.startPosition = -(typed.length : Int) := by
  simp only [programs, List.mem_map]
  rintro comp ⟨n, -, rfl⟩
  rfl

/-! ## The word under the cursor -/

theorem wordAt_go_some {ts : List Token} {cursor : Nat} {l : List (Token × Nat)} {t : Token}
    {i : Nat} (h : wordAt.go ts cursor l = some (t, i)) :
    (t, i) ∈ l ∧ t.start ≤ cursor ∧ cursor ≤ t.stop := by
  induction l with
  | nil => simp [wordAt.go] at h
  | cons p rest ih =>
    obtain ⟨u, j⟩ := p
    unfold wordAt.go at h
    split at h
    · next hin =>
      cases h
      simp only [Bool.and_eq_true, decide_eq_true_eq] at hin
      exact ⟨List.mem_cons_self, hin⟩
    · split at h
      · cases h
      · obtain ⟨hmem, hrange⟩ := ih h
        exact ⟨List.mem_cons_of_mem _ hmem, hrange⟩

/-- The word under the cursor is a word of the line, and the cursor is in it or at its ends. -/
theorem wordAt_some {ts : List Token} {cursor : Nat} {t : Token} {i : Nat}
    (h : wordAt ts cursor = some (t, i)) : ts[i]? = some t ∧ t.start ≤ cursor ∧ cursor ≤ t.stop := by
  obtain ⟨hmem, hrange⟩ := wordAt_go_some h
  exact ⟨List.mem_zipIdx_iff_getElem?.mp hmem, hrange⟩

/-- The part of a word completed is its value up to the cursor, from a point of the word
before the cursor. -/
theorem partialOf_spec (t : Token) (r : WordMatch) {cursor : Nat} (hc : t.start ≤ cursor) :
    ∃ s, t.start + s ≤ cursor ∧
      partialOf t r cursor = String.ofList ((t.value.toList.take (cursor - t.start)).drop s) := by
  unfold partialOf
  split
  · split
    · next g _ hin =>
      simp only [Bool.and_eq_true, decide_eq_true_eq] at hin
      exact ⟨g.start, hin.1.2, rfl⟩
    · exact ⟨0, by omega, rfl⟩
  · exact ⟨0, by omega, rfl⟩

/-! ## Text up to the cursor -/

/-- The text completed runs up to the cursor from a point before it. -/
def Spans (text : String) (cursor : Nat) (typed : String) : Prop :=
  ∃ k ≤ cursor, typed.toList = (text.toList.take cursor).drop k

theorem spans_empty (text : String) (cursor : Nat) : Spans text cursor "" :=
  ⟨cursor, Nat.le_refl _, by simp⟩

/-- A text that runs up to the cursor from a point before it is replaced by counting back
from the cursor by its length. -/
theorem drop_take_of_spells {cs : List Char} {cursor k : Nat} (hk : k ≤ cursor)
    (hcursor : cursor ≤ cs.length) {typed : String}
    (htyped : typed.toList = (cs.take cursor).drop k) :
    0 ≤ (cursor : Int) + -(typed.length : Int) ∧
      (cs.take cursor).drop ((cursor : Int) + -(typed.length : Int)).toNat = typed.toList := by
  have hlen : typed.length = cursor - k := by
    rw [← String.length_toList, htyped, List.length_drop, List.length_take]
    omega
  refine ⟨by omega, ?_⟩
  rw [htyped, show ((cursor : Int) + -(typed.length : Int)).toNat = k by omega]

theorem dropLeading_blanks {cs : List Char} (h : ∀ c ∈ cs, c = ' ' ∨ c = '\t') :
    Text.dropLeading Text.isBlank cs = [] := by
  induction cs with
  | nil => rfl
  | cons c rest ih =>
    have hc : Text.isBlank c = true := by
      rcases h c List.mem_cons_self with rfl | rfl <;> decide
    simp only [Text.dropLeading, hc, if_true]
    exact ih fun d hd ↦ h d (List.mem_cons_of_mem _ hd)

theorem stripString_blanks {cs : List Char} (h : ∀ c ∈ cs, c = ' ' ∨ c = '\t') :
    Text.stripString (String.ofList cs) = "" := by
  simp [Text.stripString, Text.strip, dropLeading_blanks h, Text.dropLeading]

end Completer


namespace Completer

open Tokenize

/-- What follows the last word is blanks, and blanks are completed as the empty text. -/
theorem stripString_after_last {text : String} {ts : List Token} (hL : Layout text.toList 0 ts)
    {last : Token} (hlast : ts.getLast? = some last) (cursor : Nat) :
    Text.stripString (String.ofList ((text.toList.take cursor).drop last.stop)) = "" := by
  apply stripString_blanks
  intro c hc
  obtain ⟨j, hj, rfl⟩ := List.getElem_of_mem hc
  simp only [List.length_drop, List.length_take] at hj
  rw [List.getElem_drop, List.getElem_take]
  apply hL.blank_of_outside _ _ (Nat.zero_le _)
  rintro t ht ⟨-, hlt⟩
  have := stop_le_last hL.stop_le_start hL.start_lt_stop hlast t ht
  omega

/-- A word written as its value reads, up to a point within it, as the line up to there. -/
theorem value_take_eq {cs : List Char} {pos : Nat} {ts : List Token} (hL : Layout cs pos ts)
    {t : Token} (ht : t ∈ ts) (hv : t.value = t.raw) {cursor : Nat} (hc : cursor ≤ t.stop) :
    t.value.toList.take (cursor - t.start) = (cs.take cursor).drop t.start := by
  rw [hv, hL.raw_eq_slice t ht, List.take_take, List.drop_take]
  congr 1
  omega

/-- The first word completed whole is the text up to the cursor when the cursor ends it. -/
theorem spans_firstWord {text : String} {ts : List Token} (hL : Layout text.toList 0 ts)
    {cursor : Nat} {t : Token} (hw : wordAt ts cursor = some (t, 0)) (hv : t.value = t.raw)
    (hstop : cursor = t.stop) : Spans text cursor t.value := by
  obtain ⟨hget, hstart, -⟩ := wordAt_some hw
  have ht : t ∈ ts := List.mem_of_getElem? hget
  have hlen : t.value.toList.length ≤ cursor - t.start := by
    rw [hv, hL.raw_eq_slice t ht, List.length_take]
    omega
  refine ⟨t.start, hstart, ?_⟩
  rw [← value_take_eq hL ht hv hstop.le, List.take_of_length_le hlen]

/-- The part of a later word completed is the text up to the cursor from a point before it. -/
theorem spans_partialOf {text : String} {ts : List Token} (hL : Layout text.toList 0 ts)
    {cursor : Nat} {t : Token} {i : Nat} (hw : wordAt ts cursor = some (t, i))
    (hv : t.value = t.raw) (r : WordMatch) : Spans text cursor (partialOf t r cursor) := by
  obtain ⟨hget, hstart, hstop⟩ := wordAt_some hw
  obtain ⟨s, hs, hpart⟩ := partialOf_spec t r hstart
  refine ⟨t.start + s, hs, ?_⟩
  rw [hpart, String.toList_ofList, value_take_eq hL (List.mem_of_getElem? hget) hv hstop,
    List.drop_drop]

/-! ## The offers -/

/-- What the completer offers is the offers for one text, which runs up to the cursor from a
point before it when the word under the cursor is written as typed. -/
theorem complete_offers_typed {cfg : Config} {m : Matcher} {h : Host} {text : String}
    {cursor : Nat} {offers : Offers} (hok : complete cfg m h text cursor = .ok offers) :
    ∃ typed : String,
      (offers = .programs (programs cfg h typed) ∨
        ∃ v cs, offers = .values cs ∧ fromValidator v h typed = .ok cs) ∧
      (WordAsTyped text cursor → Spans text cursor typed) := by
  have hL : Layout text.toList 0 (tokenize text) := layout_tokensFrom text.toList 0 text.toList rfl
  simp only [complete] at hok
  split at hok
  · exact ⟨"", .inr (offers_of_values hok), fun _ ↦ spans_empty text cursor⟩
  · next last hlast =>
    split at hok
    · rw [stripString_after_last hL hlast] at hok
      exact ⟨"", .inr (offers_of_values hok), fun _ ↦ spans_empty text cursor⟩
    · next t hw =>
      cases hok
      refine ⟨t.value, .inl rfl, fun hwt ↦ ?_⟩
      obtain ⟨hv, hstop⟩ := hwt t 0 hw
      exact spans_firstWord hL hw hv (hstop rfl)
    · next t i _ hw =>
      exact ⟨_, .inr (offers_of_values hok), fun hwt ↦ spans_partialOf hL hw (hwt t i hw).1 _⟩

/-- Every offer starts back from the cursor by the length of the text it completes: the
empty text on an empty line or in the blanks, the value of the first word, and the value of
a later word up to the cursor, from its last capture when the cursor is in it. When the word
under the cursor is written as its value, and the cursor ends it if it is the first word,
the offer replaces exactly the text before the cursor that was completed. -/
theorem complete_replaces_typed (cfg : Config) (m : Matcher) (h : Host) (text : String)
    (cursor : Nat) (hc : cursor ≤ text.length) {offers : Offers}
    (hok : complete cfg m h text cursor = .ok offers) :
    ∃ typed : String,
      (offers = .programs (programs cfg h typed) ∨
        ∃ v cs, offers = .values cs ∧ fromValidator v h typed = .ok cs) ∧
      ∀ comp ∈ offers.completions, comp.startPosition = -(typed.length : Int) ∧
        (WordAsTyped text cursor → 0 ≤ (cursor : Int) + comp.startPosition ∧
          (text.toList.take cursor).drop ((cursor : Int) + comp.startPosition).toNat =
            typed.toList) := by
  obtain ⟨typed, hoffers, hspans⟩ := complete_offers_typed hok
  refine ⟨typed, hoffers, fun comp hcomp ↦ ?_⟩
  have hstart : comp.startPosition = -(typed.length : Int) := by
    rcases hoffers with rfl | ⟨v, cs, rfl, hv⟩
    · exact programs_startPosition cfg h typed comp hcomp
    · exact fromValidator_startPosition hv comp hcomp
  refine ⟨hstart, fun hwt ↦ ?_⟩
  obtain ⟨k, hk, htyped⟩ := hspans hwt
  rw [hstart]
  exact drop_take_of_spells hk hc htyped

/-- Completing `gc` with the cursor at its end, where the word is as typed, offers program
names, among them `gcc`, each replacing `gc`. -/
theorem complete_replaces_typed_program_prefix :
    WordAsTyped "gc" 2 ∧ ∃ offers, complete {} default Editor.quietHost "gc" 2 = .ok offers ∧
      offers.completions ≠ [] ∧ ∃ typed : String,
        (offers = .programs (programs {} Editor.quietHost typed) ∨
          ∃ v cs, offers = .values cs ∧ fromValidator v Editor.quietHost typed = .ok cs) ∧
        ∀ comp ∈ offers.completions, comp.startPosition = -(typed.length : Int) ∧
          0 ≤ (2 : Int) + comp.startPosition ∧
          ("gc".toList.take 2).drop ((2 : Int) + comp.startPosition).toNat = typed.toList := by
  have htok : tokenize "gc" = [⟨"gc", 0, 2, .none, "gc"⟩] := by decide +kernel
  have hok : complete {} default Editor.quietHost "gc" 2 =
      .ok (.programs (programs {} Editor.quietHost "gc")) := by
    rw [complete, htok]
    rfl
  have hwt : WordAsTyped "gc" 2 := by
    intro t i hat
    have hword : wordAt [⟨"gc", 0, 2, .none, "gc"⟩] 2 = some (⟨"gc", 0, 2, .none, "gc"⟩, 0) := by
      decide
    rw [htok, hword] at hat
    cases hat
    exact ⟨rfl, fun _ ↦ rfl⟩
  have hgcc : "gcc" ∈ (programNames {}).filter (offered "gc") := by
    rw [List.mem_filter, programNames, List.mem_eraseDups, List.mem_mergeSort]
    exact ⟨by decide +kernel, by decide +kernel⟩
  have hoffered : programs {} Editor.quietHost "gc" ≠ [] := by
    simp only [programs, ne_eq, List.map_eq_nil_iff, List.append_eq_nil_iff, not_and]
    exact fun hnil ↦ absurd (hnil ▸ hgcc) List.not_mem_nil
  obtain ⟨typed, hoffers, hcomps⟩ :=
    complete_replaces_typed {} default Editor.quietHost "gc" 2 (by decide) hok
  exact ⟨hwt, _, hok, hoffered, typed, hoffers,
    fun comp hcomp ↦ ⟨(hcomps comp hcomp).1, (hcomps comp hcomp).2 hwt⟩⟩

end Completer

end FlagLine
