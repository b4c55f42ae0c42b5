import FlagLine.Regex.Parse
/-!
# Regular expressions: matching

A pattern is matched at the start of a text by backtracking, trying choices in the order
the pattern gives them: alternatives from the left, a greedy repeat with the most
iterations first, a lazy one with the fewest. An optional iteration that ends where it
started is the last one, so a repeat of something empty stops. A group records where
its last iteration matched; references, look-arounds and conditions read those records.
Case aside, a character matches by its small letter or as a variant of one letter, such
as the long s and s, while a back reference compares small letters only. Each step of a
match spends one unit of a budget that grows with the text and the pattern, a repeat
counted once for each iteration it requires, which bounds every path through the search.
-/

namespace FlagLine.Regex

/-- The spans of the capture groups by number; entry 0 is unused. -/
abbrev Spans := Array (Option (Nat × Nat))

/-- A match: where it stops, and the spans of its groups. -/
structure Found where
  stop : Nat
  spans : Spans
  deriving Inhabited

/-- What a match goes on with after a part of the pattern: the position and the spans. -/
abbrev Rest := Nat → Spans → Option Found

/-- Whether a character is in a category, by ASCII rules or by Unicode ones. -/
def Category.holds (ascii : Bool) (c : Char) : Category → Bool
  | .digit => if ascii then '0' ≤ c && c ≤ '9' else Text.isDecimal c
  | .space =>
    if ascii then c == ' ' || c == '\t' || c == '\n' || c == '\r' || c.toNat == 11 || c.toNat == 12
    else Text.isBlank c
  | .word =>
    if ascii then ('a' ≤ c && c ≤ 'z') || ('A' ≤ c && c ≤ 'Z') || ('0' ≤ c && c ≤ '9') || c == '_'
    else Text.isWordChar c

/-- Whether a character is a member of a set item. -/
def SetItem.holds (ascii : Bool) (c : Char) : SetItem → Bool
  | .char d => c == d
  | .range lo hi => lo ≤ c && c ≤ hi
  | .category cat negated => cat.holds ascii c != negated

/-- Pairs of small letters that match each other case aside, though neither is the other's
small letter: the dotless i, the long s, the micro sign, the final sigma, the Greek symbol
forms and the tall Cyrillic letters, each paired with its plain letter. -/
def caseVariantPairs : List (Nat × Nat) :=
  [(0x69, 0x131), (0x73, 0x17F), (0xB5, 0x3BC), (0x345, 0x3B9), (0x345, 0x1FBE),
    (0x390, 0x1FD3), (0x3B0, 0x1FE3), (0x3B2, 0x3D0), (0x3B5, 0x3F5), (0x3B8, 0x3D1),
    (0x3B9, 0x1FBE), (0x3BA, 0x3F0), (0x3C0, 0x3D6), (0x3C1, 0x3F1), (0x3C2, 0x3C3),
    (0x3C6, 0x3D5), (0x432, 0x1C80), (0x434, 0x1C81), (0x43E, 0x1C82), (0x441, 0x1C83),
    (0x442, 0x1C84), (0x442, 0x1C85), (0x44A, 0x1C86), (0x463, 0x1C87), (0x1C84, 0x1C85),
    (0x1C88, 0xA64B), (0x1E61, 0x1E9B), (0xFB05, 0xFB06)]

/-- The small letters that match a small letter case aside besides itself. -/
def caseVariants (c : Char) : List Char :=
  caseVariantPairs.filterMap fun (x, y) =>
    if x = c.toNat then some (Char.ofNat y) else if y = c.toNat then some (Char.ofNat x) else none

/-- Whether a character is matched by a set, case aside when folding: some member has its
small letter, or a variant of it. -/
def setHolds (negated : Bool) (items : List SetItem) (fold ascii : Bool) (c : Char) : Bool :=
  let member (x : Char) := items.any (·.holds ascii x)
  let small := Text.lowerChar c
  let caseAside := (small :: caseVariants small).any fun m => (Text.capitalsOf m).any member
  (member c || (fold && caseAside)) != negated

/-- Whether two characters have one small letter, case aside when folding: how a back
reference compares the text it repeats. -/
def sameLetter (fold : Bool) (a b : Char) : Bool :=
  a == b || (fold && Text.lowerChar a == Text.lowerChar b)

/-- Whether a character of the text matches one of the pattern, case aside when folding: by
their small letters, or as variants of one letter. -/
def sameChar (fold : Bool) (a b : Char) : Bool :=
  sameLetter fold a b || (fold && (caseVariants (Text.lowerChar b)).contains (Text.lowerChar a))

/-- Whether an anchor holds at a position of a text. -/
def Anchor.holds (input : Array Char) (multiline ascii : Bool) (pos : Nat) : Anchor → Bool
  | .lineStart => pos == 0 || (multiline && input[pos - 1]? == some '\n')
  | .lineEnd =>
    pos == input.size || (multiline && input[pos]? == some '\n') ||
      (pos + 1 == input.size && input[pos]? == some '\n')
  | .textStart => pos == 0
  | .textEnd => pos == input.size
  | .boundary =>
    let before := pos > 0 && ((input[pos - 1]?).map (Category.word.holds ascii)).getD false
    let after := ((input[pos]?).map (Category.word.holds ascii)).getD false
    input.size > 0 && before != after
  | .notBoundary =>
    let before := pos > 0 && ((input[pos - 1]?).map (Category.word.holds ascii)).getD false
    let after := ((input[pos]?).map (Category.word.holds ascii)).getD false
    input.size > 0 && before == after

/-- Whether the text at a position repeats the text of a span, case aside when folding. -/
def repeatsSpan (input : Array Char) (fold : Bool) (start stop pos : Nat) : Bool :=
  let len := stop - start
  pos + len ≤ input.size &&
    (List.range len).all fun i =>
      sameLetter fold (input.getD (pos + i) ' ') (input.getD (start + i) ' ')

def Spans.record (sp : Spans) (g start stop : Nat) : Spans := sp.setIfInBounds g (some (start, stop))

mutual

/-- Matches a tree at a position and goes on with the rest. -/
def step (input : Array Char) : Nat → Node → Nat → Spans → Rest → Option Found
  | 0, _, _, _, _ => none
  | fuel + 1, node, pos, sp, k =>
    match node with
    | .empty => k pos sp
    | .char c fold =>
      match input[pos]? with
      | some d => if sameChar fold d c then k (pos + 1) sp else none
      | none => none
    | .any dotAll =>
      match input[pos]? with
      | some d => if dotAll || d != '\n' then k (pos + 1) sp else none
      | none => none
    | .set negated items fold ascii =>
      match input[pos]? with
      | some d => if setHolds negated items fold ascii d then k (pos + 1) sp else none
      | none => none
    | .category cat negated ascii =>
      match input[pos]? with
      | some d => if cat.holds ascii d != negated then k (pos + 1) sp else none
      | none => none
    | .anchor a multiline ascii => if a.holds input multiline ascii pos then k pos sp else none
    | .seq items => stepSeq input fuel items pos sp k
    | .alt branches => stepAlt input fuel branches pos sp k
    | .group (some g) body => step input fuel body pos sp (fun q s => k q (s.record g pos q))
    | .group none body => step input fuel body pos sp k
    | .loop body lo hi .greedy => stepLoop input fuel body lo hi true 0 none pos sp k
    | .loop body lo hi .lazy => stepLoop input fuel body lo hi false 0 none pos sp k
    | .loop body lo hi .possessive =>
      match stepLoop input fuel body lo hi true 0 none pos sp (fun q s => some ⟨q, s⟩) with
      | some f => k f.stop f.spans
      | none => none
    | .backref g fold =>
      match sp[g]? with
      | some (some (s, e)) => if repeatsSpan input fold s e pos then k (pos + (e - s)) sp else none
      | _ => none
    | .look behind negated width body =>
      if behind && pos < width then (if negated then k pos sp else none)
      else
        let start := if behind then pos - width else pos
        let r := step input fuel body start sp (fun q s => if !behind || q == pos then some ⟨q, s⟩ else none)
        match r, negated with
        | some f, false => k pos f.spans
        | none, true => k pos sp
        | _, _ => none
    | .atomic body =>
      match step input fuel body pos sp (fun q s => some ⟨q, s⟩) with
      | some f => k f.stop f.spans
      | none => none
    | .cond g yes no =>
      match sp[g]? with
      | some (some _) => step input fuel yes pos sp k
      | _ => step input fuel no pos sp k

def stepSeq (input : Array Char) : Nat → List Node → Nat → Spans → Rest → Option Found
  | 0, _, _, _, _ => none
  | _ + 1, [], pos, sp, k => k pos sp
  | fuel + 1, n :: ns, pos, sp, k => step input fuel n pos sp (fun q s => stepSeq input fuel ns q s k)

/-- Matches the first alternative that lets the rest match. -/
def stepAlt (input : Array Char) : Nat → List Node → Nat → Spans → Rest → Option Found
  | 0, _, _, _, _ => none
  | _ + 1, [], _, _, _ => none
  | fuel + 1, b :: bs, pos, sp, k =>
    match step input fuel b pos sp k with
    | some f => some f
    | none => stepAlt input fuel bs pos sp k

/-- Matches a repeat that has done `count` iterations, the last optional one starting at
`last`: iterations below the least are required; above it, one more is tried first when
greedy and last when lazy, unless the count is at its greatest or the last optional
iteration matched nothing. -/
def stepLoop (input : Array Char) : Nat → Node → Nat → Option Nat → Bool → Nat → Option Nat →
    Nat → Spans → Rest → Option Found
  | 0, _, _, _, _, _, _, _, _, _ => none
  | fuel + 1, body, lo, hi, greedy, count, last, pos, sp, k =>
    if count < lo then
      step input fuel body pos sp (fun q s => stepLoop input fuel body lo hi greedy (count + 1) last q s k)
    else
      let canGrow := hi.all (count < ·) && last != some pos
      if greedy then
        let more := if canGrow then
            step input fuel body pos sp (fun q s => stepLoop input fuel body lo hi greedy (count + 1) (some pos) q s k)
          else none
        match more with
        | some f => some f
        | none => k pos sp
      else
        match k pos sp with
        | some f => some f
        | none =>
          if canGrow then
            step input fuel body pos sp (fun q s => stepLoop input fuel body lo hi greedy (count + 1) (some pos) q s k)
          else none

end

mutual

/-- The size of a tree, a repeat counting its body once for each required iteration. -/
def Node.size : Node → Nat
  | .seq items => Node.sizeList items + 1
  | .alt branches => Node.sizeList branches + 1
  | .loop body lo _ _ => (body.size + 1) * (lo + 1)
  | .group _ body | .look _ _ _ body | .atomic body => body.size + 1
  | .cond _ yes no => yes.size + no.size + 1
  | _ => 1

def Node.sizeList : List Node → Nat
  | [] => 0
  | n :: ns => n.size + Node.sizeList ns

end

/-- The budget of a match of a pattern against a text of `n` characters. -/
def Pattern.budget (p : Pattern) (n : Nat) : Nat :=
  let s := p.root.size + 2
  2 * (n + 2) * s * s + 64

/-- The match of a pattern at the start of a text, if any. -/
def Pattern.matchStart (p : Pattern) (text : String) : Option Found :=
  let input := text.toList.toArray
  step input (p.budget input.size) p.root 0 (Array.replicate (p.groups + 1) none)
    (fun q s => some ⟨q, s⟩)

/-- The span of a group of a match, if the group took part. -/
def Found.span? (f : Found) (g : Nat) : Option (Nat × Nat) := (f.spans[g]?).join

/-- The text of a group of a match, if the group took part. -/
def Found.text? (f : Found) (text : String) (g : Nat) : Option String :=
  (f.span? g).map (fun (s, e) => String.ofList ((text.toList.drop s).take (e - s)))

end FlagLine.Regex
