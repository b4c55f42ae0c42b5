/-!
# Scanning a YAML document into tokens

The scanner reads characters into the tokens of YAML: indicators, scalars, anchors,
aliases and tags, with block structure made explicit by tokens that open and close
indented collections. A scalar followed on the same line by a `:` becomes a key; the key
token is put in front of it once the colon is seen. Only spaces separate tokens; a tab is
allowed inside scalars and quoted text only. A text holding a control character is not a
document at all.
-/

namespace FlagLine.Yaml

/-- Why a text is not a YAML document. -/
inductive YamlError where
  | unreadable (c : Char)
  | scan (what : String)
  | parse (what : String)
  | compose (what : String)
  deriving Inhabited

/-- A token of a YAML document. -/
inductive Token where
  | streamEnd
  | directive
  | documentStart
  | documentEnd
  | blockSequenceStart
  | blockMappingStart
  | blockEnd
  | flowSequenceStart
  | flowSequenceEnd
  | flowMappingStart
  | flowMappingEnd
  | key
  | value
  | blockEntry
  | flowEntry
  | alias (name : String)
  | anchor (name : String)
  | tag (name : String)
  | scalar (text : String) (plain : Bool)
  deriving Inhabited, BEq

/-- A place where a key may have started. -/
structure SimpleKey where
  tokenNumber : Nat
  required : Bool
  index : Nat
  line : Nat
  column : Nat

/-- The state of a scan. -/
structure Scanner where
  input : Array Char
  index : Nat := 0
  line : Nat := 0
  column : Nat := 0
  flowLevel : Nat := 0
  indent : Int := -1
  indents : List Int := []
  allowSimpleKey : Bool := true
  simpleKeys : List (Nat × SimpleKey) := []
  tokens : Array Token := #[]
  done : Bool := false

abbrev ScanM := StateT Scanner (Except YamlError)

@[reducible] def isBreak (c : Char) : Bool :=
  c == '\r' || c == '\n' || c == '\x85' || c == '\u2028' || c == '\u2029'

@[reducible] def endMark : Char := '\x00'

@[reducible] def isBreakOrEnd (c : Char) : Bool := c == endMark || isBreak c

@[reducible] def isBlankOrEnd (c : Char) : Bool := c == ' ' || c == '\t' || isBreakOrEnd c

def isReadable (c : Char) : Bool :=
  let n := c.toNat
  n == 0x09 || n == 0x0A || n == 0x0D || (0x20 ≤ n && n ≤ 0x7E) || n == 0x85 ||
    (0xA0 ≤ n && n ≤ 0xD7FF) || (0xE000 ≤ n && n ≤ 0xFFFD) || (0x10000 ≤ n && n ≤ 0x10FFFF)

/-- A letter or digit of ASCII, or a dash or underscore: a character of names. -/
@[reducible] def isNameChar (c : Char) : Bool :=
  ('0' ≤ c && c ≤ '9') || ('A' ≤ c && c ≤ 'Z') || ('a' ≤ c && c ≤ 'z') || c == '-' || c == '_'

namespace Scan

def peek (k : Nat := 0) : ScanM Char := do
  let s ← get
  pure (s.input.getD (s.index + k) endMark)

def ahead (n : Nat) : ScanM String := do
  let s ← get
  pure (String.ofList ((s.input.extract s.index (s.index + n)).toList))

def forwardOne : ScanM Unit := modify fun s =>
  match s.input[s.index]? with
  | none => s
  | some c =>
    let next := s.input.getD (s.index + 1) endMark
    if c == '\n' || c == '\x85' || c == '\u2028' || c == '\u2029' || (c == '\r' && next != '\n') then
      { s with index := s.index + 1, line := s.line + 1, column := 0 }
    else if c == '\uFEFF' then { s with index := s.index + 1 }
    else { s with index := s.index + 1, column := s.column + 1 }

def forward : Nat → ScanM Unit
  | 0 => pure ()
  | n + 1 => do forwardOne; forward n

def take (n : Nat) : ScanM String := do
  let t ← ahead n
  forward n
  pure t

def loop (step : ScanM Bool) : ScanM Unit := do
  let s ← get
  let rec go : Nat → ScanM Unit
    | 0 => pure ()
    | n + 1 => do if ← step then go n
  go (s.input.size - s.index + 2)

def countWhile (p : Char → Bool) (from_ : Nat := 0) : ScanM Nat := do
  let s ← get
  let rec go : Nat → Nat → Nat
    | 0, k => k
    | n + 1, k => if p (s.input.getD (s.index + k) endMark) then go n (k + 1) else k
  pure (go (s.input.size + 1) from_)

/-- Reads a line break: a carriage return with a line feed, or one break character, read
as a line feed unless it is a line or paragraph separator. -/
def lineBreak : ScanM String := do
  let c ← peek
  if c == '\r' && (← peek 1) == '\n' then forward 2; pure "\n"
  else if c == '\r' || c == '\n' || c == '\x85' then forward 1; pure "\n"
  else if c == '\u2028' || c == '\u2029' then forward 1; pure (String.singleton c)
  else pure ""

def push (t : Token) : ScanM Unit := modify fun s => { s with tokens := s.tokens.push t }

def fail {α : Type} (what : String) : ScanM α := throw (.scan what)

/-- Forgets the possible key of the current flow level; a required one is an error. -/
def removeSimpleKey : ScanM Unit := do
  let s ← get
  match s.simpleKeys.lookup s.flowLevel with
  | some k =>
    if k.required then fail "could not find expected ':'"
    set { s with simpleKeys := s.simpleKeys.filter (·.1 != s.flowLevel) }
  | none => pure ()

def saveSimpleKey : ScanM Unit := do
  let s ← get
  let required := s.flowLevel == 0 && s.indent == (s.column : Int)
  if s.allowSimpleKey then
    removeSimpleKey
    let s ← get
    let k : SimpleKey := ⟨s.tokens.size, required, s.index, s.line, s.column⟩
    set { s with simpleKeys := (s.flowLevel, k) :: s.simpleKeys }

/-- Forgets possible keys that can no longer be keys: on an earlier line or too far back. -/
def staleSimpleKeys : ScanM Unit := do
  let s ← get
  let stale := s.simpleKeys.filter (fun e => e.2.line != s.line || s.index - e.2.index > 1024)
  if stale.any (·.2.required) then fail "could not find expected ':'"
  set { s with simpleKeys := s.simpleKeys.filter (fun e => !(e.2.line != s.line || s.index - e.2.index > 1024)) }

def unwindIndent (col : Int) : ScanM Unit := do
  let s ← get
  if s.flowLevel != 0 then return
  let rec go : List Int → Int → Array Token → Int × List Int × Array Token
    | [], ind, ts => (ind, [], ts)
    | i :: rest, ind, ts => if ind > col then go rest i (ts.push .blockEnd) else (ind, i :: rest, ts)
  let (ind, rest, ts) := go s.indents s.indent s.tokens
  set { s with indent := ind, indents := rest, tokens := ts }

def addIndent (col : Int) : ScanM Bool := do
  let s ← get
  if s.indent < col then
    set { s with indents := s.indent :: s.indents, indent := col }
    pure true
  else pure false

def allowKey (b : Bool) : ScanM Unit := modify fun s => { s with allowSimpleKey := b }

def toNextToken : ScanM Unit := do
  let s ← get
  if s.index == 0 && (← peek) == '\uFEFF' then forward 1
  loop do
    let n ← countWhile (· == ' ')
    forward n
    if (← peek) == '#' then
      let m ← countWhile (fun c => !isBreakOrEnd c)
      forward m
    if (← lineBreak) != "" then
      if (← get).flowLevel == 0 then allowKey true
      pure true
    else pure false

def isIndicator (c : Char) : Bool :=
  "-?:,[]\x7b\x7d#&*!|>'\"%@".toList.contains c || c.toNat == 96

def checkPlain : ScanM Bool := do
  let c ← peek
  let d ← peek 1
  let flow := (← get).flowLevel != 0
  pure (!(isBlankOrEnd c || isIndicator c) ||
    (!isBlankOrEnd d && (c == '-' || (!flow && (c == '?' || c == ':')))))

/-- The separation after a chunk of a plain scalar: the spaces, or the line breaks folded
to text. Empty when the scalar cannot go on. -/
def plainSpaces : ScanM (Option String) := do
  let n ← countWhile (· == ' ')
  let spaces ← take n
  let c ← peek
  if isBreak c then
    let br ← lineBreak
    allowKey true
    let sep (t : String) : Bool := t == "---" || t == "..."
    if sep (← ahead 3) && isBlankOrEnd (← peek 3) then return none
    let mut breaks : List String := []
    let mut stop := false
    for _ in [0:(← get).input.size + 1] do
      if stop then break
      let c ← peek
      if c == ' ' then forward 1
      else if isBreak c then
        breaks := breaks ++ [← lineBreak]
        if sep (← ahead 3) && isBlankOrEnd (← peek 3) then return none
      else stop := true
    let lead := if br != "\n" then br else if breaks.isEmpty then " " else ""
    pure (some (lead ++ String.join breaks))
  else if spaces.isEmpty then pure (some "")
  else pure (some spaces)

def plain : ScanM Unit := do
  let s0 ← get
  let indent := s0.indent + 1
  let mut text := ""
  let mut spaces := ""
  let mut stop := false
  for _ in [0:s0.input.size + 1] do
    if stop then break
    if (← peek) == '#' then break
    let flow := (← get).flowLevel != 0
    let length ← (do
      let s ← get
      let rec go : Nat → Nat → Nat
        | 0, k => k
        | fuel + 1, k =>
          let c := s.input.getD (s.index + k) endMark
          let d := s.input.getD (s.index + k + 1) endMark
          if isBlankOrEnd c || (c == ':' && (isBlankOrEnd d || (flow && ",[]\x7b\x7d".toList.contains d)))
            || (flow && ",?[]\x7b\x7d".toList.contains c) then k
          else go fuel (k + 1)
      pure (go (s.input.size + 1) 0))
    if length == 0 then break
    allowKey false
    text := text ++ spaces ++ (← take length)
    match ← plainSpaces with
    | none => stop := true
    | some sp =>
      let s ← get
      if sp.isEmpty || (← peek) == '#' || (s.flowLevel == 0 && (s.column : Int) < indent) then
        stop := true
      else spaces := sp
  push (.scalar text true)

def quotedBreaks : ScanM (List String) := do
  let mut out : List String := []
  for _ in [0:(← get).input.size + 1] do
    let t ← ahead 3
    if (t == "---" || t == "...") && isBlankOrEnd (← peek 3) then
      fail "found unexpected document separator"
    let n ← countWhile (fun c => c == ' ' || c == '\t')
    forward n
    if isBreak (← peek) then out := out ++ [← lineBreak]
    else return out
  pure out

def escapeText (c : Char) : Option String :=
  match c with
  | '0' => some "\x00" | 'a' => some "\x07" | 'b' => some "\x08" | 't' => some "\t"
  | '\t' => some "\t" | 'n' => some "\n" | 'v' => some "\x0b" | 'f' => some "\x0c"
  | 'r' => some "\r" | 'e' => some "\x1b" | ' ' => some " " | '"' => some "\""
  | '/' => some "/" | '\\' => some "\\" | 'N' => some "\x85" | '_' => some "\xa0"
  | 'L' => some "\u2028" | 'P' => some "\u2029"
  | _ => none

def hexValue? (cs : List Char) : Option Nat :=
  cs.foldlM (fun acc c =>
    if '0' ≤ c && c ≤ '9' then some (acc * 16 + (c.toNat - 48))
    else if 'a' ≤ c && c ≤ 'f' then some (acc * 16 + (c.toNat - 87))
    else if 'A' ≤ c && c ≤ 'F' then some (acc * 16 + (c.toNat - 55))
    else none) 0

/-- The text of a quoted scalar up to the next blank, quote or escape it cannot take. -/
def quotedChunk (double : Bool) : ScanM String := do
  let mut out := ""
  for _ in [0:(← get).input.size + 1] do
    let n ← countWhile (fun c => !(c == '\'' || c == '"' || c == '\\' || isBlankOrEnd c))
    out := out ++ (← take n)
    let c ← peek
    if !double && c == '\'' && (← peek 1) == '\'' then
      forward 2; out := out.push '\''
    else if (double && c == '\'') || (!double && (c == '"' || c == '\\')) then
      forward 1; out := out.push c
    else if double && c == '\\' then
      forward 1
      let e ← peek
      match escapeText e with
      | some t => forward 1; out := out ++ t
      | none =>
        let width := if e == 'x' then 2 else if e == 'u' then 4 else if e == 'U' then 8 else 0
        if width != 0 then
          forward 1
          let digits ← ahead width
          match hexValue? digits.toList with
          | some v =>
            if digits.length != width then fail "expected escape sequence of hexadecimal numbers"
            forward width
            out := out.push (Char.ofNat v)
          | none => fail "expected escape sequence of hexadecimal numbers"
        else if isBreak e then
          discard lineBreak
          out := out ++ String.join (← quotedBreaks)
        else fail "found unknown escape character"
    else return out
  pure out

def quoted (double : Bool) : ScanM Unit := do
  let q ← peek
  forward 1
  let mut text ← quotedChunk double
  for _ in [0:(← get).input.size + 1] do
    if (← peek) == q then break
    let n ← countWhile (fun c => c == ' ' || c == '\t')
    let spaces ← take n
    let c ← peek
    if c == endMark then fail "found unexpected end of stream"
    else if isBreak c then
      let br ← lineBreak
      let breaks ← quotedBreaks
      text := text ++ (if br != "\n" then br else if breaks.isEmpty then " " else "") ++
        String.join breaks
    else text := text ++ spaces
    text := text ++ (← quotedChunk double)
  forward 1
  push (.scalar text false)

def block (folded : Bool) : ScanM Unit := do
  forward 1
  -- chomping and indentation indicators
  let mut chomping : Option Bool := none
  let mut increment : Option Nat := none
  let c ← peek
  if c == '+' || c == '-' then
    chomping := some (c == '+'); forward 1
    let d ← peek
    if '0' ≤ d && d ≤ '9' then
      if d == '0' then fail "expected indentation indicator in the range 1-9"
      increment := some (d.toNat - 48); forward 1
  else if '0' ≤ c && c ≤ '9' then
    if c == '0' then fail "expected indentation indicator in the range 1-9"
    increment := some (c.toNat - 48); forward 1
    let d ← peek
    if d == '+' || d == '-' then chomping := some (d == '+'); forward 1
  let c ← peek
  if !(c == endMark || c == ' ' || isBreak c) then
    fail "expected chomping or indentation indicators"
  -- the rest of the indicator line
  forward (← countWhile (· == ' '))
  if (← peek) == '#' then forward (← countWhile (fun c => !isBreakOrEnd c))
  if !isBreakOrEnd (← peek) then fail "expected a comment or a line break"
  discard lineBreak
  let minIndent : Nat := max 1 ((← get).indent + 1).toNat
  let breaksTo (ind : Nat) : ScanM (List String) := do
    let mut out : List String := []
    for _ in [0:(← get).input.size + 1] do
      if (← get).column < ind && (← peek) == ' ' then forward 1 else break
    for _ in [0:(← get).input.size + 1] do
      if isBreak (← peek) then
        out := out ++ [← lineBreak]
        for _ in [0:(← get).input.size + 1] do
          if (← get).column < ind && (← peek) == ' ' then forward 1 else break
      else break
    pure out
  let mut breaks : List String := []
  let mut indent := minIndent
  match increment with
  | none =>
    let mut maxIndent := 0
    for _ in [0:(← get).input.size + 1] do
      let c ← peek
      if c == ' ' then
        forward 1
        if (← get).column > maxIndent then maxIndent := (← get).column
      else if isBreak c then breaks := breaks ++ [← lineBreak]
      else break
    indent := max minIndent maxIndent
  | some k =>
    indent := minIndent + k - 1
    breaks ← breaksTo indent
  let mut text := ""
  let mut lastBreak := ""
  for _ in [0:(← get).input.size + 1] do
    if !((← get).column == indent && (← peek) != endMark) then break
    text := text ++ String.join breaks
    let leadingNonSpace := !((← peek) == ' ' || (← peek) == '\t')
    text := text ++ (← take (← countWhile (fun c => !isBreakOrEnd c)))
    lastBreak ← lineBreak
    breaks ← breaksTo indent
    if (← get).column == indent && (← peek) != endMark then
      if folded && lastBreak == "\n" && leadingNonSpace && !((← peek) == ' ' || (← peek) == '\t') then
        if breaks.isEmpty then text := text ++ " "
      else text := text ++ lastBreak
    else break
  if chomping != some false then text := text ++ lastBreak
  if chomping == some true then text := text ++ String.join breaks
  push (.scalar text false)

def anchorName : ScanM String := do
  forward 1
  let n ← countWhile isNameChar
  if n == 0 then fail "expected alphabetic or numeric character"
  let name ← take n
  let c ← peek
  if !(isBlankOrEnd c || "?:,]\x7d%@".toList.contains c || c.toNat == 96) then
    fail "expected alphabetic or numeric character"
  pure name

def isTagChar (c : Char) : Bool :=
  ('0' ≤ c && c ≤ '9') || ('A' ≤ c && c ≤ 'Z') || ('a' ≤ c && c ≤ 'z') ||
    "-;/?:@&=+$,_.!~*'()[]%".toList.contains c

/-- Reads a tag: a verbatim one, the primary handle `!`, or the secondary handle `!!`
that names a standard type. -/
def tagName : ScanM String := do
  let c ← peek 1
  if c == '<' then
    forward 2
    let n ← countWhile isTagChar
    if n == 0 then fail "expected URI"
    let t ← take n
    if (← peek) != '>' then fail "expected '>'"
    forward 1
    pure t
  else if isBlankOrEnd c then
    forward 1
    pure "!"
  else
    -- a handle when another '!' follows before the next blank
    let k ← countWhile (fun c => !(c == '!' || c == endMark || c == ' ' || isBreak c)) 1
    let handle ← if (← peek k) == '!' then do
        forward 1
        let m ← countWhile isNameChar
        let h ← take m
        if (← peek) != '!' then fail "expected '!'"
        forward 1
        pure ("!" ++ h ++ "!")
      else do forward 1; pure "!"
    let n ← countWhile isTagChar
    if n == 0 then fail "expected URI"
    let suffix ← take n
    if handle == "!!" then pure ("tag:yaml.org,2002:" ++ suffix)
    else if handle == "!" then pure ("!" ++ suffix)
    else fail "found undefined tag handle"

def fetchNext : ScanM Unit := do
  toNextToken
  staleSimpleKeys
  unwindIndent (← get).column
  let c ← peek
  let s ← get
  let flow := s.flowLevel != 0
  let atLineStart := s.column == 0
  let three ← ahead 3
  if c == endMark then
    unwindIndent (-1)
    removeSimpleKey
    modify fun s => { s with allowSimpleKey := false, simpleKeys := [], done := true }
    push .streamEnd
  else if c == '%' && atLineStart then
    unwindIndent (-1); removeSimpleKey; allowKey false
    forward 1
    let n ← countWhile isNameChar
    if n == 0 then fail "expected alphabetic or numeric character"
    forward (← countWhile (fun c => !isBreakOrEnd c))
    push .directive
  else if atLineStart && (three == "---" || three == "...") && isBlankOrEnd (← peek 3) then
    unwindIndent (-1); removeSimpleKey; allowKey false
    forward 3
    push (if three == "---" then .documentStart else .documentEnd)
  else if c == '[' || c == '{' then
    saveSimpleKey
    modify fun s => { s with flowLevel := s.flowLevel + 1 }
    allowKey true
    forward 1
    push (if c == '[' then .flowSequenceStart else .flowMappingStart)
  else if c == ']' || c == '}' then
    removeSimpleKey
    if !flow then fail "unexpected end of a flow collection"
    modify fun s => { s with flowLevel := s.flowLevel - 1 }
    allowKey false
    forward 1
    push (if c == ']' then .flowSequenceEnd else .flowMappingEnd)
  else if c == ',' then
    allowKey true; removeSimpleKey; forward 1; push .flowEntry
  else if c == '-' && isBlankOrEnd (← peek 1) then
    if !flow then
      if !s.allowSimpleKey then fail "sequence entries are not allowed here"
      if ← addIndent s.column then push .blockSequenceStart
    allowKey true; removeSimpleKey; forward 1; push .blockEntry
  else if c == '?' && (flow || isBlankOrEnd (← peek 1)) then
    if !flow then
      if !s.allowSimpleKey then fail "mapping keys are not allowed here"
      if ← addIndent s.column then push .blockMappingStart
    allowKey !flow; removeSimpleKey; forward 1; push .key
  else if c == ':' && (flow || isBlankOrEnd (← peek 1)) then
    match s.simpleKeys.lookup s.flowLevel with
    | some k =>
      modify fun s => { s with simpleKeys := s.simpleKeys.filter (·.1 != s.flowLevel) }
      modify fun s => { s with tokens := s.tokens.insertIdxIfInBounds k.tokenNumber .key }
      if !flow then
        if ← addIndent k.column then
          modify fun s => { s with tokens := s.tokens.insertIdxIfInBounds k.tokenNumber .blockMappingStart }
      allowKey false
    | none =>
      if !flow then
        if !s.allowSimpleKey then fail "mapping values are not allowed here"
        if ← addIndent s.column then push .blockMappingStart
      allowKey !flow
      removeSimpleKey
    forward 1
    push .value
  else if c == '*' || c == '&' then
    saveSimpleKey; allowKey false
    let name ← anchorName
    push (if c == '*' then .alias name else .anchor name)
  else if c == '!' then
    saveSimpleKey; allowKey false
    let t ← tagName
    let d ← peek
    if !(d == endMark || d == ' ' || isBreak d) then fail "expected ' '"
    push (.tag t)
  else if (c == '|' || c == '>') && !flow then
    allowKey true; removeSimpleKey
    block (c == '>')
  else if c == '\'' || c == '"' then
    saveSimpleKey; allowKey false
    quoted (c == '"')
  else if ← checkPlain then
    saveSimpleKey; allowKey false
    plain
  else fail "found character that cannot start any token"

end Scan

def scanTokens (text : String) : Except YamlError (Array Token) := do
  let cs := text.toList
  match cs.find? (fun c => !isReadable c) with
  | some c => throw (.unreadable c)
  | none => pure ()
  let s0 : Scanner := { input := cs.toArray }
  let rec run : Nat → ScanM Unit
    | 0 => pure ()
    | n + 1 => do
      if (← get).done then return
      Scan.fetchNext
      run n
  let ((), s) ← (run (cs.length + 2)).run s0
  if !s.done then throw (.scan "unfinished scan")
  pure s.tokens

end FlagLine.Yaml
