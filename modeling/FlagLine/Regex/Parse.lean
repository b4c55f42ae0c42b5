import FlagLine.Regex.Syntax
/-!
# Regular expressions: reading a pattern

The grammar of patterns: alternatives of sequences of items, each item perhaps repeated
by `*`, `+`, `?` or a count in braces, lazily with a further `?` or without giving back
with a further `+`. Items are literals, escapes, sets in brackets, the point, anchors and
groups: capturing, named, non-capturing, look-ahead and look-behind, atomic, conditional,
comments and flag groups. Modes written at the very start of a pattern hold for all of
it; modes written with a colon hold for their group. A pattern that breaks the grammar
is refused with the reason; a repeat count past the limit overflows.
-/

namespace FlagLine.Regex

/-- Why a pattern was refused. -/
inductive RegexError where
  | malformed (reason : String)
  | overflow
  deriving DecidableEq, Repr

/-- The state of reading a pattern. -/
structure Reader where
  rest : List Char
  groupCount : Nat := 0
  names : List (String × Nat) := []
  widths : List (Nat × Width) := []
  lookbehindFrom : Option Nat := none
  condRefs : List Nat := []
  flags : Flags

abbrev ReadM := StateT Reader (Except RegexError)

namespace Read

def fail {α : Type} (reason : String) : ReadM α := throw (.malformed reason)

def peek : ReadM (Option Char) := do pure (← get).rest.head?

def peekSecond : ReadM (Option Char) := do pure ((← get).rest.drop 1).head?

def next : ReadM (Option Char) := do
  let s ← get
  match s.rest with
  | c :: r => set { s with rest := r }; pure (some c)
  | [] => pure none

def accept (c : Char) : ReadM Bool := do
  if (← peek) == some c then
    let _ ← next
    pure true
  else pure false

def takeUpTo (n : Nat) (p : Char → Bool) : ReadM (List Char) := do
  let s ← get
  let taken := (s.rest.takeWhile p).take n
  set { s with rest := s.rest.drop taken.length }
  pure taken

def isAsciiDigit (c : Char) : Bool := '0' ≤ c && c ≤ '9'

def isOctal (c : Char) : Bool := '0' ≤ c && c ≤ '7'

def isHex (c : Char) : Bool := isAsciiDigit c || ('a' ≤ c && c ≤ 'f') || ('A' ≤ c && c ≤ 'F')

def isAsciiLetter (c : Char) : Bool := ('a' ≤ c && c ≤ 'z') || ('A' ≤ c && c ≤ 'Z')

def digitsValue (base : Nat) (cs : List Char) : Nat :=
  cs.foldl (fun acc c =>
    let d := if isAsciiDigit c then c.toNat - 48
      else if 'a' ≤ c && c ≤ 'f' then c.toNat - 87 else c.toNat - 55
    acc * base + d) 0

/-- Whether a name can name a group: a letter or underscore, then letters, digits and
underscores. -/
def isIdentifier (name : String) : Bool :=
  match name.toList with
  | c :: rest => (Text.isLetter c || c == '_') && rest.all (fun d => Text.isAlnum d || d == '_')
  | [] => false

/-- The text up to a terminator, which is taken too; it may not be empty. -/
def upTo (terminator : Char) (what : String) : ReadM String := do
  let s ← get
  let name := s.rest.takeWhile (· != terminator)
  let after := s.rest.drop name.length
  match after with
  | [] =>
    if name.isEmpty then fail s!"missing {what}"
    else fail s!"missing {terminator}, unterminated name"
  | _ :: r =>
    if name.isEmpty then fail s!"missing {what}"
    set { s with rest := r }
    pure (String.ofList name)

/-- The character that a code point names, or `none` for a surrogate. -/
def charOfCode (n : Nat) : ReadM (Option Char) :=
  if n > 0x10FFFF then fail "bad escape"
  else if 0xD800 ≤ n && n ≤ 0xDFFF then pure none
  else pure (some (Char.ofNat n))

/-- A character written by hexadecimal digits, `digits` of them exactly. -/
def hexEscape (digits : Nat) (letter : Char) : ReadM (Option Char) := do
  let ds ← takeUpTo digits isHex
  if ds.length != digits then fail s!"incomplete escape \\{letter}"
  charOfCode (digitsValue 16 ds)

/-- A literal of the tree, or the empty set for a character that cannot occur. -/
def literal (fold : Bool) : Option Char → Node
  | some c => .char c fold
  | none => .set false [] fold false

/-- The character of a one-letter escape, if it is one. -/
def simpleEscape : Char → Option Char
  | 'a' => some (Char.ofNat 7)
  | 'f' => some (Char.ofNat 12)
  | 'n' => some '\n'
  | 'r' => some '\r'
  | 't' => some '\t'
  | 'v' => some (Char.ofNat 11)
  | '\\' => some '\\'
  | _ => none

/-- The class of a category escape, and whether it is negated. -/
def categoryEscape : Char → Option (Category × Bool)
  | 'd' => some (.digit, false)
  | 'D' => some (.digit, true)
  | 's' => some (.space, false)
  | 'S' => some (.space, true)
  | 'w' => some (.word, false)
  | 'W' => some (.word, true)
  | _ => none

/-- What an escape inside a set stands for: a character (or none for one that cannot
occur), or a class. -/
inductive SetAtom where
  | char (c : Option Char)
  | category (cat : Category) (negated : Bool)

/-- Reads an escape inside a set, its backslash and letter taken. -/
def setEscape (c : Char) : ReadM SetAtom := do
  if c == 'b' then return .char (some (Char.ofNat 8))
  if let some e := simpleEscape c then return .char (some e)
  if let some (cat, neg) := categoryEscape c then return .category cat neg
  match c with
  | 'x' => return .char (← hexEscape 2 'x')
  | 'u' => return .char (← hexEscape 4 'u')
  | 'U' => return .char (← hexEscape 8 'U')
  | _ =>
    if isOctal c then
      let ds ← takeUpTo 2 isOctal
      let n := digitsValue 8 (c :: ds)
      if n > 0o377 then fail "octal escape value outside of range 0-0o377"
      return .char (some (Char.ofNat n))
    else if isAsciiDigit c || isAsciiLetter c then fail s!"bad escape \\{c}"
    else return .char (some c)

def isClosed (g : Nat) : ReadM Bool := do
  pure (((← get).widths.lookup g).isSome)

/-- Refuses a reference from inside a look-behind to a group that is open or was opened
inside it. -/
def checkLookbehindRef (g : Nat) : ReadM Unit := do
  match (← get).lookbehindFrom with
  | some start =>
    if !(← isClosed g) then fail "cannot refer to an open group"
    if g ≥ start then fail "cannot refer to group defined in the same lookbehind subpattern"
  | none => pure ()

def groupRef (fold : Bool) (g : Nat) : ReadM Node := do
  if g ≥ 1 && g ≤ (← get).groupCount then
    if !(← isClosed g) then fail "cannot refer to an open group"
    checkLookbehindRef g
    return .backref g fold
  else fail s!"invalid group reference {g}"

/-- Reads an escape of digits outside a set, the first digit taken: an octal character
of three octal digits, else a reference to a group by one or two digits. -/
def digitEscape (fold : Bool) (c : Char) : ReadM Node := do
  let second ← peek
  let third ← peekSecond
  match second with
  | some d =>
    if isAsciiDigit d then
      let _ ← next
      if isOctal c && isOctal d && (third.map isOctal).getD false then
        let _ ← next
        let n := digitsValue 8 [c, d, third.getD '0']
        if n > 0o377 then fail "octal escape value outside of range 0-0o377"
        return literal fold (some (Char.ofNat n))
      else groupRef fold (digitsValue 10 [c, d])
    else groupRef fold (digitsValue 10 [c])
  | none => groupRef fold (digitsValue 10 [c])

/-- Reads an escape outside a set, its backslash and letter taken. -/
def escape (flags : Flags) (c : Char) : ReadM Node := do
  let fold := flags.ignoreCase
  if c == 'A' then return .anchor .textStart flags.multiline flags.ascii
  if c == 'Z' then return .anchor .textEnd flags.multiline flags.ascii
  if c == 'b' then return .anchor .boundary flags.multiline flags.ascii
  if c == 'B' then return .anchor .notBoundary flags.multiline flags.ascii
  if let some (cat, neg) := categoryEscape c then return .category cat neg flags.ascii
  if let some e := simpleEscape c then return .char e fold
  if c == 'x' then return literal fold (← hexEscape 2 'x')
  if c == 'u' then return literal fold (← hexEscape 4 'u')
  if c == 'U' then return literal fold (← hexEscape 8 'U')
  if c == '0' then
    let ds ← takeUpTo 2 isOctal
    return literal fold (some (Char.ofNat (digitsValue 8 ds)))
  if isAsciiDigit c then return ← digitEscape fold c
  if isAsciiLetter c then fail s!"bad escape \\{c}"
  return .char c fold

/-- Reads the members of a set after its opening bracket and any negation. -/
def setItems (fuel : Nat) (acc : List SetItem) : ReadM (List SetItem) := do
  match fuel with
  | 0 => fail "unterminated character set"
  | fuel + 1 =>
  let some this ← next | fail "unterminated character set"
  if this == ']' && !acc.isEmpty then return acc.reverse
  let first : SetAtom ← if this == '\\' then
      match ← next with
      | some e => setEscape e
      | none => fail "bad escape (end of pattern)"
    else pure (.char (some this))
  let asItem : SetAtom → List SetItem := fun a =>
    match a with
    | .char (some ch) => [.char ch]
    | .char none => []
    | .category cat neg => [.category cat neg]
  if ← accept '-' then
    let some that ← next | fail "unterminated character set"
    if that == ']' then
      return (acc.reverse ++ asItem first ++ [.char '-'])
    let second : SetAtom ← if that == '\\' then
        match ← next with
        | some e => setEscape e
        | none => fail "bad escape (end of pattern)"
      else pure (.char (some that))
    match first, second with
    | .char (some lo), .char (some hi) =>
      if hi < lo then fail "bad character range"
      setItems fuel (.range lo hi :: acc)
    | .char _, .char _ => setItems fuel acc
    | _, _ => fail "bad character range"
  else setItems fuel (asItem first ++ acc)

/-- Reads the inline flags of a group after `(?`, the first letter given: `none` for flags
that hold for the whole pattern, else the flags turned on and off for the group. -/
def inlineFlags (first : Char) : ReadM (Option (Flags × Flags)) := do
  let isFlag : Char → Bool := fun c => "imsxaLu".toList.contains c
  let setFlag : Flags → Char → Flags := fun f c =>
    match c with
    | 'i' => { f with ignoreCase := true }
    | 'm' => { f with multiline := true }
    | 's' => { f with dotAll := true }
    | 'x' => { f with verbose := true }
    | 'a' => { f with ascii := true }
    | 'u' => { f with unicode := true }
    | _ => f
  let mut on : Flags := {}
  let mut c := first
  let bound := (← get).rest.length + 1
  if first != '-' then
    for _ in [0:bound] do
      if c == 'L' then fail "bad inline flags: cannot use 'L' flag with a str pattern"
      on := setFlag on c
      if on.ascii && on.unicode then fail "bad inline flags: flags 'a', 'u' and 'L' are incompatible"
      let some d ← next | fail "missing -, : or )"
      c := d
      if c == ')' || c == '-' || c == ':' then break
      if !isFlag c then
        fail (if c.isAlpha then "unknown flag" else "missing -, : or )")
    if !(c == ')' || c == '-' || c == ':') then fail "missing -, : or )"
  if c == ')' then
    let s ← get
    let g := s.flags
    set { s with flags := { g with ignoreCase := g.ignoreCase || on.ignoreCase
                                   multiline := g.multiline || on.multiline
                                   dotAll := g.dotAll || on.dotAll
                                   verbose := g.verbose || on.verbose
                                   ascii := g.ascii || on.ascii
                                   unicode := g.unicode || on.unicode } }
    return none
  let mut off : Flags := {}
  if c == '-' then
    let some d ← next | fail "missing flag"
    c := d
    if !isFlag c then fail (if c.isAlpha then "unknown flag" else "missing flag")
    for _ in [0:bound] do
      if c == 'a' || c == 'u' || c == 'L' then
        fail "bad inline flags: cannot turn off flags 'a', 'u' and 'L'"
      off := setFlag off c
      let some d ← next | fail "missing :"
      c := d
      if c == ':' then break
      if !isFlag c then fail (if c.isAlpha then "unknown flag" else "missing :")
    if c != ':' then fail "missing :"
  if (on.ignoreCase && off.ignoreCase) || (on.multiline && off.multiline) ||
      (on.dotAll && off.dotAll) || (on.verbose && off.verbose) then
    fail "bad inline flags: flag turned on and off"
  return some (on, off)

def Flags.adjust (f on off : Flags) : Flags :=
  { ignoreCase := (f.ignoreCase || on.ignoreCase) && !off.ignoreCase
    multiline := (f.multiline || on.multiline) && !off.multiline
    dotAll := (f.dotAll || on.dotAll) && !off.dotAll
    verbose := (f.verbose || on.verbose) && !off.verbose
    ascii := f.ascii || on.ascii
    unicode := f.unicode || on.unicode }

/-- Reads the count of a repeat in braces after its opening brace: `none` when the brace
does not start a count, and then nothing is taken. -/
def braceCount : ReadM (Option (Nat × Option Nat)) := do
  let saved ← get
  let lo ← takeUpTo saved.rest.length isAsciiDigit
  let (hasComma, hi) ← if ← accept ',' then do
      let hi ← takeUpTo saved.rest.length isAsciiDigit
      pure (true, hi)
    else pure (false, lo)
  if !(← accept '}') then
    set saved
    return none
  let min := if lo.isEmpty then 0 else digitsValue 10 lo
  if min ≥ repeatLimit then throw .overflow
  let max : Option Nat :=
    if hi.isEmpty then (if hasComma then none else some min) else some (digitsValue 10 hi)
  match max with
  | some m =>
    if m ≥ repeatLimit then throw .overflow
    if m < min then fail "min repeat greater than max repeat"
  | none => pure ()
  return some (min, max)

/-- Whether an item may not be repeated: an anchor. -/
def isAnchor : Node → Bool
  | .anchor .. => true
  | _ => false

def isLoop : Node → Bool
  | .loop .. => true
  | _ => false

def groupWidth (widths : List (Nat × Width)) (g : Nat) : Width := (widths.lookup g).getD ⟨0, 0⟩

mutual

/-- Reads alternatives up to a closing parenthesis or the end. -/
def alternatives (fuel : Nat) (flags : Flags) (nested : Nat) : ReadM Node := do
  match fuel with
  | 0 => fail "pattern too deeply nested"
  | fuel + 1 =>
  let first ← sequence fuel flags nested (nested == 0) []
  let mut branches := [first]
  for _ in [0:fuel] do
    if !(← accept '|') then break
    branches := branches ++ [← sequence fuel flags nested false []]
  match branches with
  | [b] => return b
  | bs => return .alt bs

/-- Reads the items of one alternative, collected in reverse in `items`. -/
def sequence (fuel : Nat) (flags : Flags) (nested : Nat) (first : Bool) (items : List Node) :
    ReadM Node := do
  match fuel with
  | 0 => fail "pattern too deeply nested"
  | fuel + 1 =>
  let global := (← get).flags
  let flags := if nested == 0 then global else flags
  let fl := flags
  match ← peek with
  | none => return .seq items.reverse
  | some '|' => return .seq items.reverse
  | some ')' => return .seq items.reverse
  | some this =>
  let _ ← next
  if flags.verbose && (this == ' ' || this == '\t' || this == '\n' || this == '\r' ||
      this.toNat == 11 || this.toNat == 12) then
    return ← sequence fuel fl nested first items
  if flags.verbose && this == '#' then
    let s ← get
    let rest := s.rest.dropWhile (· != '\n')
    set { s with rest := rest.drop 1 }
    return ← sequence fuel fl nested first items
  let fold := flags.ignoreCase
  match this with
  | '\\' =>
    match ← next with
    | some e => sequence fuel fl nested first ((← escape flags e) :: items)
    | none => fail "bad escape (end of pattern)"
  | '[' =>
    let negated ← accept '^'
    let members ← setItems (fuel + (← get).rest.length + 1) []
    sequence fuel fl nested first (.set negated members fold flags.ascii :: items)
  | '*' | '+' | '?' | '{' =>
    let count : Option (Nat × Option Nat) ← match this with
      | '*' => pure (some (0, none))
      | '+' => pure (some (1, none))
      | '?' => pure (some (0, some 1))
      | _ =>
        if (← peek) == some '}' then pure none
        else braceCount
    match count with
    | none => sequence fuel fl nested first (.char '{' fold :: items)
    | some (lo, hi) =>
      match items with
      | [] => fail "nothing to repeat"
      | item :: before =>
        if isAnchor item then fail "nothing to repeat"
        if isLoop item then fail "multiple repeat"
        let body := match item with
          | .group none b => b
          | b => b
        let mode ← if ← accept '?' then pure RepeatMode.lazy
          else if ← accept '+' then pure RepeatMode.possessive
          else pure RepeatMode.greedy
        sequence fuel fl nested first (.loop body lo hi mode :: before)
  | '.' => sequence fuel fl nested first (.any flags.dotAll :: items)
  | '^' => sequence fuel fl nested first (.anchor .lineStart flags.multiline flags.ascii :: items)
  | '$' => sequence fuel fl nested first (.anchor .lineEnd flags.multiline flags.ascii :: items)
  | '(' =>
    if !(← accept '?') then
      let g ← openGroup none
      let body ← alternatives fuel flags (nested + 1)
      closeGroup g body
      sequence fuel fl nested first (.group (some g) body :: items)
    else
    let some c ← next | fail "unexpected end of pattern"
    match c with
    | 'P' =>
      if ← accept '<' then
        let name ← upTo '>' "group name"
        if !isIdentifier name then fail s!"bad character in group name {name}"
        let g ← openGroup (some name)
        let body ← alternatives fuel flags (nested + 1)
        closeGroup g body
        sequence fuel fl nested first (.group (some g) body :: items)
      else if ← accept '=' then
        let name ← upTo ')' "group name"
        if !isIdentifier name then fail s!"bad character in group name {name}"
        match (← get).names.lookup name with
        | none => fail s!"unknown group name {name}"
        | some g =>
          if !(← isClosed g) then fail "cannot refer to an open group"
          checkLookbehindRef g
          sequence fuel fl nested first (.backref g fold :: items)
      else
        match ← next with
        | none => fail "unexpected end of pattern"
        | some d => fail s!"unknown extension ?P{d}"
    | ':' =>
      let body ← alternatives fuel flags (nested + 1)
      expectClose
      sequence fuel fl nested first (.group none body :: items)
    | '#' =>
      let s ← get
      let comment := s.rest.takeWhile (· != ')')
      if comment.length == s.rest.length then fail "missing ), unterminated comment"
      set { s with rest := s.rest.drop (comment.length + 1) }
      sequence fuel fl nested first items
    | '=' | '!' =>
      let body ← alternatives fuel flags (nested + 1)
      expectClose
      sequence fuel fl nested first (.look false (c == '!') 0 body :: items)
    | '<' =>
      let some d ← next | fail "unexpected end of pattern"
      if d != '=' && d != '!' then fail s!"unknown extension ?<{d}"
      let before := (← get).lookbehindFrom
      if before.isNone then
        modify fun s => { s with lookbehindFrom := some (s.groupCount + 1) }
      let body ← alternatives fuel flags (nested + 1)
      if before.isNone then modify fun s => { s with lookbehindFrom := none }
      expectClose
      let w := body.width (groupWidth (← get).widths)
      if w.lo != w.hi then fail "look-behind requires fixed-width pattern"
      sequence fuel fl nested first (.look true (d == '!') w.lo body :: items)
    | '(' =>
      let name ← upTo ')' "group name"
      let g ← if isIdentifier name then
          match (← get).names.lookup name with
          | some g => pure g
          | none => fail s!"unknown group name {name}"
        else if !name.isEmpty && name.toList.all isAsciiDigit then
          let g := digitsValue 10 name.toList
          if g == 0 then fail "bad group number"
          modify fun s => { s with condRefs := g :: s.condRefs }
          pure g
        else fail s!"bad character in group name {name}"
      checkLookbehindRef g
      let yes ← sequence fuel flags (nested + 1) false []
      let no ← if ← accept '|' then do
          let n ← sequence fuel flags (nested + 1) false []
          if (← peek) == some '|' then fail "conditional backref with more than two branches"
          pure n
        else pure Node.empty
      expectClose
      sequence fuel fl nested first (.cond g yes no :: items)
    | '>' =>
      let body ← alternatives fuel flags (nested + 1)
      expectClose
      sequence fuel fl nested first (.atomic body :: items)
    | _ =>
      if "imsxaLu-".toList.contains c then
        match ← inlineFlags c with
        | none =>
          if !first || !items.isEmpty then fail "global flags not at the start of the expression"
          sequence fuel fl nested first items
        | some (on, off) =>
          let body ← alternatives fuel (Flags.adjust flags on off) (nested + 1)
          expectClose
          sequence fuel fl nested first (.group none body :: items)
      else fail s!"unknown extension ?{c}"
  | c => sequence fuel fl nested first (.char c fold :: items)

def expectClose : ReadM Unit := do
  if !(← accept ')') then fail "missing ), unterminated subpattern"

/-- Opens a capture group, with its name if it has one. -/
def openGroup (name : Option String) : ReadM Nat := do
  let s ← get
  let g := s.groupCount + 1
  match name with
  | some n =>
    if (s.names.lookup n).isSome then fail s!"redefinition of group name {n}"
    set { s with groupCount := g, names := s.names ++ [(n, g)] }
  | none => set { s with groupCount := g }
  pure g

/-- Closes a capture group, recording its width, and takes its closing parenthesis. -/
def closeGroup (g : Nat) (body : Node) : ReadM Unit := do
  expectClose
  let s ← get
  set { s with widths := (g, body.width (groupWidth s.widths)) :: s.widths }

end

end Read

def parse (pattern : String) (flags : Flags := {}) : Except RegexError Pattern := do
  let cs := pattern.toList
  let fuel := 4 * cs.length + 8
  let (root, s) ← (Read.alternatives fuel flags 0).run { rest := cs, flags := flags }
  if !s.rest.isEmpty then throw (.malformed "unbalanced parenthesis")
  if s.condRefs.any (· > s.groupCount) then throw (.malformed "invalid group reference")
  if s.flags.ascii && s.flags.unicode then throw (.malformed "ASCII and UNICODE flags are incompatible")
  pure { root := root, groups := s.groupCount, names := s.names }

end FlagLine.Regex
