import FlagLine.Token.Basic
/-!
# Quoting values back into a command line

A value is written bare unless it is empty or holds a character that a shell treats
specially. Such a value is put in double quotes when it holds none, else in single quotes
when it holds none of those, else in double quotes with each backslash and double quote
escaped by a backslash.
-/

namespace FlagLine

@[reducible] def isShellSpecial (c : Char) : Bool :=
  c == ' ' || c == '\t' || c == '\n' || c == '\r' || c == '"' || c == '\'' || c == '\\' ||
    c == '$' || c == (Char.ofNat 96) || c == '!' || c == '|' || c == '&' || c == ';' ||
    c == '(' || c == ')' || c == '<' || c == '>'

/-- Whether a value must be quoted to stand as one token. -/
def needsQuoting (v : List Char) : Bool := v.isEmpty || v.any isShellSpecial

/-- A value in double quotes with each backslash and double quote escaped. -/
def escapeDouble (v : List Char) : List Char :=
  v.flatMap (fun c => if c = '\\' ∨ c = '"' then ['\\', c] else [c])

/-- The text that stands for a value on a command line. -/
def quoteValue (v : List Char) : List Char :=
  if needsQuoting v then
    if !v.contains '"' then '"' :: v ++ ['"']
    else if !v.contains '\'' then '\'' :: v ++ ['\'']
    else '"' :: escapeDouble v ++ ['"']
  else v

/-- The command line that writes the tokens' values, each quoted as it needs. -/
def rebuildCommand (tokens : List Token) : String :=
  String.ofList (Text.join [' '] (tokens.map (fun t => quoteValue t.value.toList)))

end FlagLine
