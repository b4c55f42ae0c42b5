import FlagLine.Text.Basic
/-!
# Splitting a command into shell words

Words are separated by spaces, tabs, carriage returns and newlines. A single quote keeps
everything up to the next single quote as it stands; a double quote does the same except
that a backslash there escapes a backslash or a double quote and is otherwise kept; a
backslash outside quotes takes the next character as it stands. A pair of quotes with
nothing between them still makes a word. A quote left open, or a backslash at the very
end, is an error.
-/

namespace FlagLine.Shell

/-- Where the splitter stands: between words, in a word, inside quotes, or just after a
backslash in a word or inside double quotes. -/
inductive Place where
  | blank
  | word
  | single
  | double
  | escapedWord
  | escapedDouble
  deriving DecidableEq

/-- Why a command cannot be split. -/
inductive SplitError where
  | openQuote
  | danglingEscape
  deriving DecidableEq

def SplitError.message : SplitError → String
  | .openQuote => "No closing quotation"
  | .danglingEscape => "No escaped character"

def isSeparator (c : Char) : Bool := c == ' ' || c == '\t' || c == '\r' || c == '\n'

/-- The words of the rest of a command, given the place, the current word reversed and
the words so far reversed. Inside a word the current word is kept even when empty, as
after a pair of quotes. -/
def splitFrom : List Char → Place → List Char → List String → Except SplitError (List String)
  | [], .blank, _, acc => .ok acc.reverse
  | [], .word, tok, acc => .ok (String.ofList tok.reverse :: acc).reverse
  | [], .single, _, _ => .error .openQuote
  | [], .double, _, _ => .error .openQuote
  | [], .escapedWord, _, _ => .error .danglingEscape
  | [], .escapedDouble, _, _ => .error .danglingEscape
  | c :: cs, .blank, tok, acc =>
    if isSeparator c then splitFrom cs .blank tok acc
    else if c == '\\' then splitFrom cs .escapedWord tok acc
    else if c == '\'' then splitFrom cs .single tok acc
    else if c == '"' then splitFrom cs .double tok acc
    else splitFrom cs .word [c] acc
  | c :: cs, .word, tok, acc =>
    if isSeparator c then splitFrom cs .blank [] (String.ofList tok.reverse :: acc)
    else if c == '\'' then splitFrom cs .single tok acc
    else if c == '"' then splitFrom cs .double tok acc
    else if c == '\\' then splitFrom cs .escapedWord tok acc
    else splitFrom cs .word (c :: tok) acc
  | c :: cs, .single, tok, acc =>
    if c == '\'' then splitFrom cs .word tok acc else splitFrom cs .single (c :: tok) acc
  | c :: cs, .double, tok, acc =>
    if c == '"' then splitFrom cs .word tok acc
    else if c == '\\' then splitFrom cs .escapedDouble tok acc
    else splitFrom cs .double (c :: tok) acc
  | c :: cs, .escapedWord, tok, acc => splitFrom cs .word (c :: tok) acc
  | c :: cs, .escapedDouble, tok, acc =>
    if c == '\\' || c == '"' then splitFrom cs .double (c :: tok) acc
    else splitFrom cs .double (c :: '\\' :: tok) acc

def split (command : String) : Except SplitError (List String) :=
  splitFrom command.toList .blank [] []

end FlagLine.Shell
