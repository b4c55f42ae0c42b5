import FlagLine.Data.Value
/-!
# Data as JSON text

Writes a value as JSON text laid out as the usual writer lays it out: a comma and a
space between members, a colon and a space after a key, keys as the plain text of the
key. In a text the quote, the backslash and the common control characters take their
short escapes, and every other character outside printable ASCII is written as
`\u` and four hexadecimal digits, a character past the first plane as two surrogates.
-/

namespace FlagLine.Json

def unitEscape (n : Nat) : List Char := '\\' :: 'u' :: hexPadded 4 n

def escapeChar (c : Char) : List Char :=
  if c = '"' then ['\\', '"']
  else if c = '\\' then ['\\', '\\']
  else if c = '\n' then ['\\', 'n']
  else if c = '\r' then ['\\', 'r']
  else if c = '\t' then ['\\', 't']
  else if c.toNat < 32 ∨ c.toNat > 126 then
    if c.toNat > 0xFFFF then
      let v := c.toNat - 0x10000
      unitEscape (0xD800 + v / 0x400) ++ unitEscape (0xDC00 + v % 0x400)
    else unitEscape c.toNat
  else [c]

def quote (s : String) : String := String.ofList ('"' :: s.toList.flatMap escapeChar ++ ['"'])

mutual

def text : Value → String
  | .null => "null"
  | .bool b => if b then "true" else "false"
  | .int n => toString n
  | .float x => floatText Value.floatNotation x
  | .str s => quote s
  | .list xs => "[" ++ members xs ++ "]"
  | .dict es => "\x7b" ++ entries es ++ "\x7d"

def members : List Value → String
  | [] => ""
  | [x] => text x
  | x :: rest => text x ++ ", " ++ members rest

def entries : List (Value × Value) → String
  | [] => ""
  | [(k, v)] => quote k.text ++ ": " ++ text v
  | (k, v) :: rest => quote k.text ++ ": " ++ text v ++ ", " ++ entries rest

end

/-- The text of a file that holds a value: nothing for none, a text as itself, and any
other value as JSON. -/
def fileText : Value → String
  | .null => ""
  | .str s => s
  | v => text v

end FlagLine.Json
