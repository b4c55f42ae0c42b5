import FlagLine.Yaml.Scanner
/-!
# Composing a YAML document

The tokens of a scan are parsed into one tree of scalars, sequences and mappings.
Anchored nodes are remembered and aliases stand for copies of them. A stream holds at
most one document; a stream with none holds nothing. A missing node, such as a key
without a value, is an empty plain scalar.
-/

namespace FlagLine.Yaml

/-- A node of a YAML document, with its tag when one was written. -/
inductive Node where
  | scalar (tag : Option String) (text : String) (plain : Bool)
  | sequence (tag : Option String) (items : List Node)
  | mapping (tag : Option String) (entries : List (Node × Node))
  deriving Inhabited

/-- The state of a parse: the tokens, the position and the anchors seen. -/
structure Parser where
  tokens : Array Token
  pos : Nat := 0
  anchors : List (String × Node) := []

abbrev ParseM := StateT Parser (Except YamlError)

namespace Parse

def peek : ParseM Token := do
  let p ← get
  pure (p.tokens.getD p.pos .streamEnd)

def next : ParseM Unit := modify fun p => { p with pos := p.pos + 1 }

def fail {α : Type} (what : String) : ParseM α := throw (.parse what)

def empty : Node := .scalar none "" true

def isAt (ks : List Token) : ParseM Bool := do
  let t ← peek
  pure (ks.any (fun k => k == t))

/-- A node, in block context or not, where a sequence may also be a list of entries at the
indentation of the mapping around it. Each nested node uses up one unit of `fuel`. -/
def node (fuel : Nat) (block indentless : Bool) : ParseM Node := do
  match fuel with
  | 0 => fail "document nested too deeply"
  | fuel + 1 =>
  match ← peek with
  | .alias name =>
    next
    match (← get).anchors.lookup name with
    | some n => pure n
    | none => throw (.compose "found undefined alias")
  | _ =>
  let mut anchor : Option String := none
  let mut tag : Option String := none
  match ← peek with
  | .anchor a =>
    next; anchor := some a
    match ← peek with
    | .tag t => next; tag := some t
    | _ => pure ()
  | .tag t =>
    next; tag := some t
    match ← peek with
    | .anchor a => next; anchor := some a
    | _ => pure ()
  | _ => pure ()
  let n ← do
    match ← peek with
    | .blockEntry =>
      if indentless then
        let mut items : Array Node := #[]
        for _ in [0:fuel + 1] do
          if (← peek) != .blockEntry then break
          next
          if ← isAt [.blockEntry, .key, .value, .blockEnd] then items := items.push empty
          else items := items.push (← node fuel true false)
        pure (Node.sequence tag items.toList)
      else if anchor.isSome || tag.isSome then pure (Node.scalar tag "" false)
      else fail "expected the node content"
    | .scalar text plain => next; pure (Node.scalar tag text plain)
    | .flowSequenceStart =>
      next
      let mut items : Array Node := #[]
      let mut first := true
      for _ in [0:fuel + 1] do
        if (← peek) == .flowSequenceEnd then break
        if !first then
          if (← peek) == .flowEntry then next
          else fail "expected ',' or ']'"
        first := false
        if (← peek) == .key then
          next
          let k ← if ← isAt [.value, .flowEntry, .flowSequenceEnd] then pure empty
            else node fuel false false
          let v ← if (← peek) == .value then do
              next
              if ← isAt [.flowEntry, .flowSequenceEnd] then pure empty else node fuel false false
            else pure empty
          items := items.push (Node.mapping none [(k, v)])
        else if (← peek) != .flowSequenceEnd then
          items := items.push (← node fuel false false)
      if (← peek) != .flowSequenceEnd then fail "expected ']'"
      next
      pure (Node.sequence tag items.toList)
    | .flowMappingStart =>
      next
      let mut entries : Array (Node × Node) := #[]
      let mut first := true
      for _ in [0:fuel + 1] do
        if (← peek) == .flowMappingEnd then break
        if !first then
          if (← peek) == .flowEntry then next
          else fail "expected ',' or '\x7d'"
        first := false
        if (← peek) == .key then
          next
          let k ← if ← isAt [.value, .flowEntry, .flowMappingEnd] then pure empty
            else node fuel false false
          let v ← if (← peek) == .value then do
              next
              if ← isAt [.flowEntry, .flowMappingEnd] then pure empty else node fuel false false
            else pure empty
          entries := entries.push (k, v)
        else if (← peek) != .flowMappingEnd then
          let k ← node fuel false false
          entries := entries.push (k, empty)
      if (← peek) != .flowMappingEnd then fail "expected '\x7d'"
      next
      pure (Node.mapping tag entries.toList)
    | .blockSequenceStart =>
      if !block then fail "expected the node content"
      next
      let mut items : Array Node := #[]
      for _ in [0:fuel + 1] do
        if (← peek) != .blockEntry then break
        next
        if ← isAt [.blockEntry, .blockEnd] then items := items.push empty
        else items := items.push (← node fuel true false)
      if (← peek) != .blockEnd then fail "expected <block end>"
      next
      pure (Node.sequence tag items.toList)
    | .blockMappingStart =>
      if !block then fail "expected the node content"
      next
      let mut entries : Array (Node × Node) := #[]
      for _ in [0:fuel + 1] do
        if (← peek) != .key then break
        next
        let k ← if ← isAt [.key, .value, .blockEnd] then pure empty else node fuel true true
        let v ← if (← peek) == .value then do
            next
            if ← isAt [.key, .value, .blockEnd] then pure empty else node fuel true true
          else pure empty
        entries := entries.push (k, v)
      if (← peek) != .blockEnd then fail "expected <block end>"
      next
      pure (Node.mapping tag entries.toList)
    | _ =>
      if anchor.isSome || tag.isSome then pure (Node.scalar tag "" false)
      else fail "expected the node content"
  match anchor with
  | some a =>
    if ((← get).anchors.lookup a).isSome then throw (.compose "found duplicate anchor")
    modify fun p => { p with anchors := (a, n) :: p.anchors }
  | none => pure ()
  pure n

def document : ParseM (Option Node) := do
  let fuel := (← get).tokens.size + 1
  let isDocStartish ← isAt [.directive, .documentStart, .streamEnd]
  let mut result : Option Node := none
  if !isDocStartish then
    result := some (← node fuel true false)
    if (← peek) == .documentEnd then next
  else
    for _ in [0:fuel] do
      if (← peek) == .documentEnd then next else break
    if (← peek) != .streamEnd then
      for _ in [0:fuel] do
        if (← peek) == .directive then next else break
      if (← peek) != .documentStart then fail "expected '<document start>'"
      next
      if ← isAt [.directive, .documentStart, .documentEnd, .streamEnd] then
        result := some empty
      else result := some (← node fuel true false)
      if (← peek) == .documentEnd then next
  -- nothing but ends of documents may follow
  for _ in [0:fuel] do
    if (← peek) == .documentEnd then next else break
  if (← peek) != .streamEnd then
    if result.isSome then throw (.compose "expected a single document in the stream")
    else fail "expected '<document start>'"
  pure result

end Parse

/-- The tree of the single document of a text, or `none` for a text with none. -/
def composeText (text : String) : Except YamlError (Option Node) := do
  let tokens ← scanTokens text
  let (n, _) ← Parse.document.run { tokens := tokens }
  pure n

end FlagLine.Yaml
