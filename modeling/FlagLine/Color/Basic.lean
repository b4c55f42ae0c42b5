import FlagLine.Text.Basic
/-!
# Colour specifications

A colour is an optional foreground and background and an optional switch per text
attribute; a colour that combines leaves everything it does not set to the colour it is
laid over. A specification such as `bold red on white` is read word by word, case aside:
an attribute word switches it on (`inverse` is `reverse`), `on` takes the words up to the
next attribute or `on` as the background, `bright` with a base colour names a bright
colour, and the first colour word, `#` word or number is the foreground. A leading `+`
makes the colour combine. Other words are ignored.
-/

namespace FlagLine

/-- A foreground or background: a colour name as written, or an index of the terminal
palette. -/
inductive Shade where
  | name (text : String)
  | index (n : Int)
  deriving DecidableEq, Repr, Inhabited

/-- A colour with its attributes; `none` leaves a field unset. -/
structure Color where
  fg : Option Shade := none
  bg : Option Shade := none
  bold : Option Bool := none
  dim : Option Bool := none
  italic : Option Bool := none
  underline : Option Bool := none
  blink : Option Bool := none
  reverse : Option Bool := none
  hidden : Option Bool := none
  strikethrough : Option Bool := none
  combine : Bool := false
  deriving DecidableEq, Repr, Inhabited

namespace Color

def baseColors : List (String × Nat) :=
  [("black", 0), ("red", 1), ("green", 2), ("yellow", 3), ("blue", 4), ("magenta", 5),
   ("cyan", 6), ("white", 7)]

/-- The bright colours and their palette indices; grey is bright black. -/
def brightColors : List (String × Nat) :=
  [("bright black", 8), ("bright red", 9), ("bright green", 10), ("bright yellow", 11),
   ("bright blue", 12), ("bright magenta", 13), ("bright cyan", 14), ("bright white", 15),
   ("gray", 8), ("grey", 8)]

def attributeWords : List String :=
  ["bold", "dim", "italic", "underline", "blink", "reverse", "inverse", "hidden", "strikethrough"]

def isAttribute (w : String) : Bool := attributeWords.contains w

/-- The colour with the attribute of a word switched on. -/
def withAttribute (c : Color) (w : String) : Color :=
  match w with
  | "bold" => { c with bold := some true }
  | "dim" => { c with dim := some true }
  | "italic" => { c with italic := some true }
  | "underline" => { c with underline := some true }
  | "blink" => { c with blink := some true }
  | "reverse" | "inverse" => { c with reverse := some true }
  | "hidden" => { c with hidden := some true }
  | "strikethrough" => { c with strikethrough := some true }
  | _ => c

/-- The colour with a foreground, unless it has one. -/
def withForeground (c : Color) (s : String) : Color :=
  if c.fg.isNone then { c with fg := some (.name s) } else c

/-- Whether a word names a colour as a foreground: a colour name, a `#` word or a number. -/
def isForegroundWord (w : String) : Bool :=
  (baseColors.lookup w).isSome || (brightColors.lookup w).isSome || w.startsWith "#" ||
    (!w.isEmpty && w.toList.all Text.isDigit)

mutual

/-- Reads the words of a specification into a colour. -/
def readWords (c : Color) : List String → Color
  | [] => c
  | w :: rest =>
    if isAttribute w then readWords (c.withAttribute w) rest
    else if w == "on" && !rest.isEmpty then readBackground c [] rest
    else if w == "bright" && ((baseColors.lookup (rest.headD "")).isSome && !rest.isEmpty) then
      readWords (c.withForeground ("bright " ++ rest.headD "")) rest.tail
    else readWords (if isForegroundWord w then c.withForeground w else c) rest
termination_by ws => ws.length

/-- Reads the words of a background, collected in `acc`, up to an attribute or `on`. -/
def readBackground (c : Color) (acc : List String) : List String → Color
  | [] => { c with bg := some (.name (" ".intercalate acc)) }
  | w :: rest =>
    let c' : Color := { c with bg := some (.name (" ".intercalate acc)) }
    if isAttribute w then readWords (c'.withAttribute w) rest
    else if w == "on" then
      if rest.isEmpty then c' else readBackground c' [] rest
    else readBackground c (acc ++ [w]) rest
termination_by ws => ws.length

end

def parse (spec : String) : Color :=
  if spec.isEmpty then {}
  else
    let combine := spec.startsWith "+"
    let body := if combine then String.ofList (spec.toList.drop 1) else spec
    let words := (Text.words (Text.lower body.toList)).map String.ofList
    readWords { combine := combine } words

/-- A colour laid over another: each field the overlay sets wins. The result does not
combine. -/
def overlay (base top : Color) : Color :=
  { fg := top.fg <|> base.fg
    bg := top.bg <|> base.bg
    bold := top.bold <|> base.bold
    dim := top.dim <|> base.dim
    italic := top.italic <|> base.italic
    underline := top.underline <|> base.underline
    blink := top.blink <|> base.blink
    reverse := top.reverse <|> base.reverse
    hidden := top.hidden <|> base.hidden
    strikethrough := top.strikethrough <|> base.strikethrough
    combine := false }

/-- The colours of `n` capture groups from a list of specifications: the last one repeats,
and no specifications mean white. -/
def forGroups (specs : List String) (n : Nat) : List Color :=
  let colors := if specs.isEmpty then [parse "white"] else specs.map parse
  (List.range n).map (fun i => colors.getD i (colors.getLastD {}))

end Color

end FlagLine
