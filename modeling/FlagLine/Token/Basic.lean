import FlagLine.Text.Basic
/-!
# Command-line tokens

A command line is read into tokens separated by spaces and tabs. A token that opens with
a quote runs to the matching quote, or to the end of the text when none follows, and
ends there even if more text is glued to it. Any other token runs to the next space or
tab and may hold quoted sections. Inside quotes a backslash escapes the quote and the
backslash; outside them it also escapes a space, a tab and either quote. Any other
backslash stands for itself. Each token keeps its value, its span in the text, its raw
text and the kind of quote it used.
-/

namespace FlagLine

/-- The quoting of a token. -/
inductive Quote where
  | none
  | single
  | double
  deriving DecidableEq, Repr, Inhabited

/-- A token of a command line: its value without quotes and escapes, the span
`[start, stop)` of its raw text, and the kind of quote that it used. -/
structure Token where
  value : String
  start : Nat
  stop : Nat
  quote : Quote := .none
  raw : String
  deriving DecidableEq, Repr, Inhabited

namespace Token

def isQuoted (t : Token) : Bool := t.quote != .none

/-- The number of characters of text that the token spans. -/
def length (t : Token) : Nat := t.stop - t.start

/-- A token standing for a value at a span: its raw text is the value, or the empty
text when the value is empty. -/
def ofValue (v : String) (start stop : Nat) : Token := ⟨v, start, stop, .none, v⟩

end Token

namespace Tokenize

@[reducible] def isQuoteChar (c : Char) : Bool := c == '"' || c == '\''

@[reducible] def isBareEscape (c : Char) : Bool :=
  c == ' ' || c == '\t' || c == '\\' || c == '\'' || c == '"'

/-- What a scan has read: the value, the text after it, and whether a quoted section
occurred in it. -/
structure Scan where
  value : List Char
  rest : List Char
  quoted : Bool := false

/-- A scan with one more character in front of its value. -/
def Scan.cons (c : Char) (s : Scan) : Scan := { s with value := c :: s.value }

@[simp] theorem Scan.rest_cons (c : Char) (s : Scan) : (s.cons c).rest = s.rest := rfl

@[simp] theorem Scan.value_cons (c : Char) (s : Scan) : (s.cons c).value = c :: s.value := rfl

@[simp] theorem Scan.quoted_cons (c : Char) (s : Scan) : (s.cons c).quoted = s.quoted := rfl

/-- A scan with a quoted section's value in front of its value. -/
def Scan.afterSection (v : List Char) (s : Scan) : Scan := ⟨v ++ s.value, s.rest, true⟩

@[simp] theorem Scan.rest_afterSection (v : List Char) (s : Scan) :
    (s.afterSection v).rest = s.rest := rfl

/-- Reads the inside of a section quoted by `q`: the value and the text after the closing
quote (all of it used up when the quote is never closed). -/
def scanQuoted (q : Char) : List Char → Scan
  | [] => ⟨[], [], false⟩
  | c :: r =>
    if c = q then ⟨[], r, false⟩
    else if c = '\\' then
      match r with
      | [] => ⟨['\\'], [], false⟩
      | d :: r' =>
        if d = q ∨ d = '\\' then (scanQuoted q r').cons d
        else (scanQuoted q (d :: r')).cons '\\'
    else (scanQuoted q r).cons c

theorem scanQuoted_rest_le (q : Char) (cs : List Char) :
    (scanQuoted q cs).rest.length ≤ cs.length := by
  fun_induction scanQuoted q cs <;> simp_all <;> omega

/-- Reads an unquoted token up to the next space or tab: the value, the text after it and
whether a quoted section occurred in it. -/
def scanBare : List Char → Scan
  | [] => ⟨[], [], false⟩
  | c :: r =>
    if c = ' ' ∨ c = '\t' then ⟨[], c :: r, false⟩
    else if c = '\\' then
      match r with
      | [] => ⟨['\\'], [], false⟩
      | d :: r' =>
        if isBareEscape d then (scanBare r').cons d
        else (scanBare (d :: r')).cons '\\'
    else if isQuoteChar c then
      (scanBare (scanQuoted c r).rest).afterSection (scanQuoted c r).value
    else (scanBare r).cons c
termination_by cs => cs.length
decreasing_by
  all_goals simp_wf
  all_goals first
    | omega
    | have := scanQuoted_rest_le c r; omega

theorem scanBare_rest_le (cs : List Char) : (scanBare cs).rest.length ≤ cs.length := by
  fun_induction scanBare cs with
  | case6 c r _ _ _ ih =>
    have := scanQuoted_rest_le c r
    simp only [Scan.rest_afterSection, List.length_cons]; omega
  | _ => simp_all <;> omega

theorem scanBare_rest_lt {c : Char} (r : List Char) (hc : ¬(c = ' ' ∨ c = '\t')) :
    (scanBare (c :: r)).rest.length < (c :: r).length := by
  rw [scanBare.eq_def]
  simp only [hc, if_false]
  split
  · split
    · simp
    · next d r' =>
      split
      · have := scanBare_rest_le r'; simp only [Scan.rest_cons, List.length_cons]; omega
      · have := scanBare_rest_le (d :: r')
        simp only [Scan.rest_cons, List.length_cons] at *; omega
  · split
    · have h1 := scanQuoted_rest_le c r
      have h2 := scanBare_rest_le (scanQuoted c r).rest
      simp only [Scan.rest_afterSection, List.length_cons]; omega
    · have := scanBare_rest_le r; simp only [Scan.rest_cons, List.length_cons]; omega

/-- The token that starts at position `pos` with the text `c :: r`, and the text after it.
A token that opens with a quote is a quoted token; any other is unquoted. -/
def readToken (pos : Nat) (c : Char) (r : List Char) : Token × List Char :=
  if isQuoteChar c then
    let p := scanQuoted c r
    let raw := (c :: r).take ((c :: r).length - p.rest.length)
    (⟨String.ofList p.value, pos, pos + raw.length,
      if c = '"' then .double else .single, String.ofList raw⟩, p.rest)
  else
    let s := scanBare (c :: r)
    let raw := (c :: r).take ((c :: r).length - s.rest.length)
    let quote : Quote :=
      if s.quoted then (if raw.contains '"' then .double else .single) else .none
    (⟨String.ofList s.value, pos, pos + raw.length, quote, String.ofList raw⟩, s.rest)

theorem readToken_rest_lt (pos : Nat) {c : Char} (r : List Char) (hc : ¬(c = ' ' ∨ c = '\t')) :
    (readToken pos c r).2.length < (c :: r).length := by
  unfold readToken
  split
  · have := scanQuoted_rest_le c r; simp only [List.length_cons]; omega
  · exact scanBare_rest_lt r hc

/-- The tokens of the text `cs`, which starts at position `pos` of the command line. -/
def tokensFrom (pos : Nat) : List Char → List Token
  | [] => []
  | c :: r =>
    if h : c = ' ' ∨ c = '\t' then tokensFrom (pos + 1) r
    else
      let p := readToken pos c r
      p.1 :: tokensFrom p.1.stop p.2
termination_by cs => cs.length
decreasing_by
  · simp
  · exact readToken_rest_lt pos r h

end Tokenize

def tokenize (text : String) : List Token := Tokenize.tokensFrom 0 text.toList

/-- The command line that joins the raw texts of tokens with single spaces. -/
def detokenize (tokens : List Token) : String := Text.joinStrings " " (tokens.map Token.raw)

end FlagLine
