import FlagLine.Match.Words
import FlagLine.Color.Render
/-!
# Styling a command line

The lexer turns a command line into pieces of styled text. Each word is matched against
the flag patterns and styled by its captures: a captured part takes the colour of its
position among the category's colours (the last one repeating), and the parts of the
word between captures take the category's style class. The colours of a configured
category are the names its colour table is written under; any other category takes its
colour from the theme, or the theme's default. Blanks between words stay unstyled.
While duplicates are shown, words are styled only as current, selected, other duplicate
or dimmed; with the lights off, every word but those of one category is dimmed. The
style classes of the theme's categories, the default and the duplicate and lights-off
states form the lexer's style table, where the theme may override the last two.
Without a program to start from, the lexer builds a new matcher from the first word of
each line it styles.
-/

namespace FlagLine

abbrev Styled := List (String × String)

/-- The style class of a category: its name in small letters, with colons and spaces
turned into dashes. -/
def styleClass (category : String) : String :=
  "class:" ++ ((Text.lowerString category).replace ":" "-").replace " " "-"

/-- The style table of a theme, in the order its classes are first set. -/
def themeStyles (t : Theme) : Table String :=
  let styleOf (spec : String) : String := (Color.parse spec).style
  let categories := t.categories.foldl (fun acc e => Table.insert acc (styleClass e.1) (styleOf e.2)) []
  let withDefault :=
    if t.defaultColor.isEmpty then categories
    else Table.insert categories "class:default" (styleOf t.defaultColor)
  let custom (acc : Table String) (key cls : String) : Table String :=
    match Table.find? t.categories key with
    | some spec => Table.insert acc cls (styleOf spec)
    | none => acc
  let dup := [("class:duplicate", "bg:ansiyellow"), ("class:duplicate-current", "bg:ansired bold"),
    ("class:duplicate-selected", "bg:ansigreen"), ("class:duplicate-dim", "fg:ansibrightblack")]
  let withDup := dup.foldl (fun acc e => Table.insert acc e.1 e.2) withDefault
  let withDupTheme := [("ui:duplicates", "class:duplicate"),
      ("ui:duplicates-current", "class:duplicate-current"),
      ("ui:duplicates-selected", "class:duplicate-selected"),
      ("ui:duplicates-dim", "class:duplicate-dim")].foldl (fun acc e => custom acc e.1 e.2) withDup
  let lights := [("class:lights-off-dim", "fg:ansibrightblack"), ("class:lights-off-highlight", "bold")]
  let withLights := lights.foldl (fun acc e => Table.insert acc e.1 e.2) withDupTheme
  [("ui:lights-off-dim", "class:lights-off-dim"),
   ("ui:lights-off-highlight", "class:lights-off-highlight")].foldl (fun acc e => custom acc e.1 e.2) withLights

/-- What the lexer needs to know of the duplicates being shown: the positions of all
duplicates, the current one, and those of selected groups. -/
structure DuplicateView where
  highlighted : List Nat
  current : Option Nat
  selected : List Nat
  deriving DecidableEq, Repr, Inhabited

/-- The lexer: the configuration and theme, the program it started from, its matcher,
the lights-off state and its style table. -/
structure Lexer where
  config : Config
  theme : Theme
  executable : Option String
  matcher : Matcher
  lightsOff : Bool := false
  lightsCategory : Option String := none
  styles : Table String
  deriving Inhabited

namespace Lexer

/-- The lexer of a configuration and theme, for a program if one is named. -/
def make (c : Config) (t : Theme) (executable : Option String) : Except Regex.RegexError Lexer := do
  let m ← Matcher.make c executable
  pure { config := c, theme := t, executable := executable, matcher := m, styles := themeStyles t }

/-- Turns the lights off or on, keeping one category lit. -/
def setLights (lx : Lexer) (enabled : Bool) (category : Option String) : Lexer :=
  { lx with lightsOff := enabled, lightsCategory := category }

/-- Turns the lights back on when they are off for the same category, else off for it. -/
def toggleLights (lx : Lexer) (category : Option String) : Lexer :=
  if lx.lightsOff && lx.lightsCategory == category then lx.setLights false none
  else lx.setLights true category

/-- The piece of a text from one position to another. -/
def slice (s : String) (start stop : Nat) : String :=
  String.ofList ((s.toList.drop start).take (stop - start))

/-- A word styled by its captures, taken in order of where they start: the text before
a capture takes the category's class, each capture the colour at its position, and the
text after the last capture the category's class again. -/
def styleGroups (value : String) (groups : List Capture) (colors : List Color) (category : String) :
    Styled :=
  let sorted := groups.mergeSort (fun a b => decide (a.start ≤ b.start))
  let cls := styleClass category
  let (pieces, last) := (sorted.zipIdx).foldl (fun (acc : Styled × Nat) (g, i) =>
    let before : Styled := if g.start > acc.2 then [(cls, slice value acc.2 g.start)] else []
    let color := colors.getD (min i (colors.length - 1)) {}
    (acc.1 ++ before ++ [(color.style, g.value)], g.stop)) ([], 0)
  if last < value.length then pieces ++ [(cls, slice value last value.length)] else pieces

def dims (lx : Lexer) (category : String) : Bool :=
  lx.lightsOff &&
    match lx.lightsCategory with
    | some c => c.isEmpty || Text.lowerString category != Text.lowerString c
    | none => true

/-- The colours of a category: the names its colour table is written under when it is
configured, else the theme's colour for it or the theme's default. -/
def categoryColors (lx : Lexer) (category : String) : List String :=
  match Table.find? lx.config.categories (Text.lowerString category) with
  | some cat => cat.colors.map Prod.fst
  | none => [(Table.find? lx.theme.categories category).getD lx.theme.defaultColor]

/-- The styled pieces of the word at a position. -/
def styleWord (lx : Lexer) (view : Option DuplicateView) (i : Nat) (r : WordMatch) : Styled :=
  let raw := r.token.raw
  match view with
  | some v =>
    if v.highlighted.contains i then
      if v.current == some i then [("class:duplicate-current", raw)]
      else if v.selected.contains i then [("class:duplicate-selected", raw)]
      else [("class:duplicate", raw)]
    else [("class:duplicate-dim", raw)]
  | none =>
    if lx.dims r.category then [("class:lights-off-dim", raw)]
    else if r.groups.isEmpty then [(styleClass r.category, raw)]
    else
      let colors := Color.forGroups (lx.categoryColors r.category) r.groups.length
      styleGroups r.token.value r.groups colors r.category

/-- The styled pieces of a line from its matched words, with the blanks around them. -/
def styleLine (lx : Lexer) (view : Option DuplicateView) (results : List WordMatch) (text : String) :
    Styled :=
  let (pieces, last) := (results.zipIdx).foldl (fun (acc : Styled × Nat) (r, i) =>
    let gap : Styled := if r.token.start > acc.2 then [("", slice text acc.2 r.token.start)] else []
    (acc.1 ++ gap ++ lx.styleWord view i r, r.token.stop)) ([], 0)
  if last < text.length then pieces ++ [("", slice text last text.length)] else pieces

/-- The lexer after it styled a line, the pieces, and whether it had to build a new matcher
from the line's first word. -/
structure Lexed where
  lexer : Lexer
  styled : Styled
  renewed : Bool
  deriving Inhabited

/-- Styles a line. Without a program to start from, a new matcher is built from the
line's first word; matching the line may then change the matcher's program. -/
def lex (lx : Lexer) (view : Option DuplicateView) (text : String) : Except Regex.RegexError Lexed := do
  let tokens := tokenize text
  let fresh := (lx.executable.all String.isEmpty) && !tokens.isEmpty
  let lx ← if fresh then do
      let m ← Matcher.make lx.config ((tokens.head?).map Token.value)
      pure { lx with matcher := { m with warnings := lx.matcher.warnings ++ m.warnings } }
    else pure lx
  let (results, m) ← lx.matcher.matchLine tokens
  let lx := { lx with matcher := m }
  pure ⟨lx, lx.styleLine view results text, fresh⟩

end Lexer

end FlagLine
