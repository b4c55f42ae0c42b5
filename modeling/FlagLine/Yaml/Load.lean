import FlagLine.Yaml.Compose
import FlagLine.Data.Value
/-!
# Loading a YAML document as configuration data

A plain scalar is read by the rules of YAML 1.1: `~`, `null` and the empty text are null;
yes, no, true, false, on and off in three spellings are switches; integers may be binary,
octal (a leading zero), decimal, hexadecimal or sexagesimal, with underscores; doubles need
a point, and an exponent needs a sign; `.inf` and `.nan` are the special doubles. Any other
scalar, and every quoted one, is text. A key `<<` merges the mappings under it into the
mapping around it, whose own entries win. A document without a node is null.
-/

namespace FlagLine.Yaml

def allOf (p : Char → Bool) (cs : List Char) : Bool := cs.all p

@[reducible] def isDec (c : Char) : Bool := '0' ≤ c && c ≤ '9'

def decRun (cs : List Char) : Bool :=
  match cs with
  | c :: rest => isDec c && allOf (fun c => isDec c || c == '_') rest
  | [] => false

def unsign : List Char → Bool × List Char
  | '-' :: rest => (true, rest)
  | '+' :: rest => (false, rest)
  | cs => (false, cs)

def sexagesimalTail (cs : List Char) : Bool :=
  match Text.splitOnChar ':' cs with
  | _ :: parts@(_ :: _) => parts.all (fun p =>
      match p with
      | [d] => isDec d
      | [a, b] => '0' ≤ a && a ≤ '5' && isDec b
      | _ => false)
  | _ => false

def beforeColon (cs : List Char) : List Char := cs.takeWhile (· != ':')

def isIntText (cs : List Char) : Bool :=
  let (_, u) := unsign cs
  match u with
  | '0' :: 'b' :: rest => !rest.isEmpty && allOf (fun c => c == '0' || c == '1' || c == '_') rest
  | '0' :: 'x' :: rest => !rest.isEmpty && allOf (fun c => isDec c || ('a' ≤ c && c ≤ 'f') ||
      ('A' ≤ c && c ≤ 'F') || c == '_') rest
  | '0' :: rest => rest.isEmpty || allOf (fun c => ('0' ≤ c && c ≤ '7') || c == '_') rest
  | c :: _ =>
    ('1' ≤ c && c ≤ '9') &&
      (decRun u || (decRun (beforeColon u) && sexagesimalTail u))
  | [] => false

def isFloatText (cs : List Char) : Bool :=
  let (_, u) := unsign cs
  let signed := cs.head? == some '-' || cs.head? == some '+'
  let expOk (e : List Char) : Bool :=
    match e with
    | [] => true
    | c :: s :: ds => (c == 'e' || c == 'E') && (s == '-' || s == '+') && !ds.isEmpty && allOf isDec ds
    | _ => false
  -- digits, a point, digits and underscores, then an exponent
  let pointed (v : List Char) : Bool :=
    match v.findIdx? (· == '.') with
    | some i =>
      let whole := v.take i
      let rest := v.drop (i + 1)
      let frac := rest.takeWhile (fun c => isDec c || c == '_')
      decRun whole && expOk (rest.drop frac.length)
    | none => false
  let special := u == ".inf".toList || u == ".Inf".toList || u == ".INF".toList
  let nan := cs == ".nan".toList || cs == ".NaN".toList || cs == ".NAN".toList
  let bare := !signed && (match cs with
    | '.' :: rest =>
      let frac := rest.takeWhile (fun c => isDec c || c == '_')
      !frac.isEmpty && expOk (rest.drop frac.length)
    | _ => false)
  let sexa := match u.findIdx? (· == '.') with
    | some i =>
      let head := u.take i
      decRun (beforeColon head) && sexagesimalTail head &&
        allOf (fun c => isDec c || c == '_') (u.drop (i + 1))
    | none => false
  pointed u || bare || sexa || special || nan

def isNullText (s : String) : Bool := s == "" || s == "~" || s == "null" || s == "Null" || s == "NULL"

def boolText? (s : String) : Option Bool :=
  if ["yes", "Yes", "YES", "true", "True", "TRUE", "on", "On", "ON"].contains s then some true
  else if ["no", "No", "NO", "false", "False", "FALSE", "off", "Off", "OFF"].contains s then some false
  else none

def isTimestampText (cs : List Char) : Bool :=
  match cs with
  | a :: b :: c :: d :: '-' :: rest =>
    allOf isDec [a, b, c, d] &&
      (match rest with
       | [e, f, '-', g, h] => allOf isDec [e, f, g, h]
       | _ => rest.length > 5 && rest.any (· == ':') && isDec (rest.headD 'x'))
  | _ => false

def digitsIn (base : Nat) (cs : List Char) : Nat :=
  cs.foldl (fun acc c =>
    let d := if isDec c then c.toNat - 48 else if 'a' ≤ c && c ≤ 'f' then c.toNat - 87
      else if 'A' ≤ c && c ≤ 'F' then c.toNat - 55 else 0
    acc * base + d) 0

def intValue (cs : List Char) : Int :=
  let v := cs.filter (· != '_')
  let (neg, u) := unsign v
  let n : Nat := match u with
    | ['0'] => 0
    | '0' :: 'b' :: rest => digitsIn 2 rest
    | '0' :: 'x' :: rest => digitsIn 16 rest
    | '0' :: rest => digitsIn 8 rest
    | _ =>
      if u.contains ':' then
        (Text.splitOnChar ':' u).foldl (fun acc p => acc * 60 + digitsIn 10 p) 0
      else digitsIn 10 u
  if neg then -(n : Int) else n

def decimalValue (cs : List Char) : Float :=
  let whole := cs.takeWhile isDec
  let rest := cs.drop whole.length
  let (frac, afterFrac) := match rest with
    | '.' :: r => (r.takeWhile isDec, r.drop (r.takeWhile isDec).length)
    | r => ([], r)
  let exp : Int := match afterFrac with
    | 'e' :: '-' :: ds => -(digitsIn 10 ds : Int)
    | 'e' :: '+' :: ds => digitsIn 10 ds
    | 'e' :: ds => digitsIn 10 ds
    | _ => 0
  let m := digitsIn 10 (whole ++ frac)
  let e := exp - frac.length
  if e ≥ 0 then Float.ofScientific m false e.toNat else Float.ofScientific m true (-e).toNat

def floatValue (cs : List Char) : Float :=
  let v := Text.lower (cs.filter (· != '_'))
  let (neg, u) := unsign v
  let x : Float :=
    if u == ".inf".toList then 1.0 / 0.0
    else if u == ".nan".toList then 0.0 / 0.0
    else if u.contains ':' then
      (Text.splitOnChar ':' u).foldl (fun acc p => acc * 60 + decimalValue p) 0
    else decimalValue u
  if neg then -x else x

def resolvePlain (s : String) : String :=
  let cs := s.toList
  if (boolText? s).isSome then "bool"
  else if isFloatText cs then "float"
  else if isIntText cs then "int"
  else if s == "<<" then "merge"
  else if isNullText s then "null"
  else if isTimestampText cs then "timestamp"
  else if s == "=" then "value"
  else "str"

def scalarValue (kind : String) (s : String) : Except YamlError Value :=
  match kind with
  | "null" => pure .null
  | "bool" =>
    match boolText? s with
    | some b => pure (.bool b)
    | none =>
      match Text.lowerString s with
      | "yes" | "true" | "on" => pure (.bool true)
      | "no" | "false" | "off" => pure (.bool false)
      | _ => throw (.compose "not a switch")
  | "int" => if isIntText s.toList then pure (.int (intValue s.toList)) else throw (.compose "not an integer")
  | "float" => pure (.float (floatValue s.toList))
  | "str" | "timestamp" => pure (.str s)
  | _ => throw (.compose "could not determine a constructor for the tag")

def standardKind? (tag : String) : Option String :=
  let pre := "tag:yaml.org,2002:"
  if tag.startsWith pre then some (String.ofList (tag.toList.drop pre.length)) else none

mutual

def construct : Node → Except YamlError Value
  | .scalar tag text plain =>
    match tag with
    | none => if plain then scalarValue (resolvePlain text) text else pure (.str text)
    | some "!" => scalarValue (resolvePlain text) text
    | some t =>
      match standardKind? t with
      | some k => scalarValue k text
      | none => throw (.compose "could not determine a constructor for the tag")
  | .sequence tag items =>
    match tag with
    | none | some "!" | some "tag:yaml.org,2002:seq" => do pure (.list (← constructItems items))
    | _ => throw (.compose "could not determine a constructor for the tag")
  | .mapping tag entries =>
    match tag with
    | none | some "!" | some "tag:yaml.org,2002:map" => do
      let (merged, own) ← constructEntries entries
      pure (.dict (Value.entriesOf (merged ++ own)))
    | _ => throw (.compose "could not determine a constructor for the tag")

def constructItems : List Node → Except YamlError (List Value)
  | [] => pure []
  | n :: rest => do pure ((← construct n) :: (← constructItems rest))

def constructEntries : List (Node × Node) → Except YamlError (List (Value × Value) × List (Value × Value))
  | [] => pure ([], [])
  | (k, v) :: rest => do
    let (merged, own) ← constructEntries rest
    match k with
    | .scalar none "<<" true =>
      match ← construct v with
      | .dict es => pure (es ++ merged, own)
      | .list ms => do
        let parts ← ms.reverse.mapM (fun m => match m with
          | .dict es => pure es
          | _ => throw (.compose "expected a mapping for merging"))
        pure (parts.flatten ++ merged, own)
      | _ => throw (.compose "expected a mapping or list of mappings for merging")
    | _ =>
      let key ← match k with
        | .scalar none "=" true => pure (.str "=")
        | _ => construct k
      match key with
      | .list _ | .dict _ => throw (.compose "found unhashable key")
      | _ => pure (merged, (key, ← construct v) :: own)

end

/-- The configuration data that a YAML text holds; null for a text without a document. -/
def load (text : String) : Except YamlError Value := do
  match ← composeText text with
  | some n => construct n
  | none => pure .null

end FlagLine.Yaml
