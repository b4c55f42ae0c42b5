import FlagLine.Color.Basic
import FlagLine.Text.Case
/-!
# Writing colours out

A colour becomes a terminal escape sequence and a style text for the editor's screen.
The escape lists the select-graphic codes: a reset unless the colour combines, the
attributes in a fixed order, then the foreground and the background. A base colour is
code 30 plus its index (40 for a background), a bright colour code 90 plus its offset
(100 for a background); other palette indices and unknown names give no code. The style
text names the attributes, except dim, then the two colours by the screen's names; a
palette index past the sixteen named ones becomes a grey written as three hexadecimal
repeats.
-/

namespace FlagLine

namespace Shade

/-- The select-graphic code of a shade, as a foreground or a background. -/
def code (s : Shade) (foreground : Bool) : Option Nat :=
  let base := if foreground then 30 else 40
  let bright := if foreground then 90 else 100
  match s with
  | .index n =>
    if 0 ≤ n ∧ n ≤ 7 then some (base + n.toNat)
    else if 8 ≤ n ∧ n ≤ 15 then some (bright + n.toNat - 8)
    else none
  | .name text =>
    let l := Text.lowerString text
    match Color.baseColors.lookup l with
    | some k => some (base + k)
    | none =>
      match Color.brightColors.lookup l with
      | some k => some (bright + k - 8)
      | none => none

def paletteNames : List String :=
  ["ansiblack", "ansired", "ansigreen", "ansiyellow", "ansiblue", "ansimagenta", "ansicyan",
   "ansiwhite", "ansibrightblack", "ansibrightred", "ansibrightgreen", "ansibrightyellow",
   "ansibrightblue", "ansibrightmagenta", "ansibrightcyan", "ansibrightwhite"]

/-- The screen's names of colours written as words, run together. -/
def wordNames : List (String × String) :=
  [("black", "ansiblack"), ("red", "ansired"), ("green", "ansigreen"), ("yellow", "ansiyellow"),
   ("blue", "ansiblue"), ("magenta", "ansimagenta"), ("cyan", "ansicyan"), ("white", "ansiwhite"),
   ("brightblack", "ansibrightblack"), ("brightred", "ansibrightred"),
   ("brightgreen", "ansibrightgreen"), ("brightyellow", "ansibrightyellow"),
   ("brightblue", "ansibrightblue"), ("brightmagenta", "ansibrightmagenta"),
   ("brightcyan", "ansibrightcyan"), ("brightwhite", "ansibrightwhite"),
   ("gray", "ansibrightblack"), ("grey", "ansibrightblack")]

/-- Lower-case hexadecimal digits of a natural, at least two. -/
def hexDigits (n : Nat) : String :=
  let ds := Nat.toDigits 16 n
  String.ofList (if ds.length < 2 then '0' :: ds else ds)

/-- Hexadecimal text of an integer, at least two characters, the sign counted. -/
def hexText (n : Int) : String :=
  if n < 0 then "-" ++ String.ofList (Nat.toDigits 16 n.natAbs) else hexDigits n.toNat

/-- The screen's name of a shade; empty for an empty name. -/
def styleName : Shade → String
  | .index n =>
    if 0 ≤ n ∧ n ≤ 15 then paletteNames.getD n.toNat ""
    else "#" ++ hexText n ++ hexText n ++ hexText n
  | .name text =>
    let l := String.ofList ((Text.lower text.toList).filter (· != ' '))
    (wordNames.lookup l).getD l

end Shade

namespace Color

def isOn (b : Option Bool) : Bool := b == some true

def codes (c : Color) : List Nat :=
  (if c.combine then [] else [0]) ++
  ([(c.bold, 1), (c.dim, 2), (c.italic, 3), (c.underline, 4), (c.blink, 5), (c.reverse, 7),
    (c.hidden, 8), (c.strikethrough, 9)].filterMap (fun a => if isOn a.1 then some a.2 else none)) ++
  (c.fg.bind (fun s => s.code true)).toList ++
  (c.bg.bind (fun s => s.code false)).toList

/-- The terminal escape sequence of a colour; empty when it has no codes. -/
def ansi (c : Color) : String :=
  match c.codes with
  | [] => ""
  | cs => "\x1b[" ++ ";".intercalate (cs.map toString) ++ "m"

/-- The style text of a colour for the editor's screen. -/
def style (c : Color) : String :=
  let attrs := [(c.bold, "bold"), (c.italic, "italic"), (c.underline, "underline"),
    (c.blink, "blink"), (c.reverse, "reverse"), (c.hidden, "hidden"), (c.strikethrough, "strike")]
  let fg := match c.fg with
    | some s => if s.styleName.isEmpty then [] else [s.styleName]
    | none => []
  let bg := match c.bg with
    | some s => if s.styleName.isEmpty then [] else ["bg:" ++ s.styleName]
    | none => []
  " ".intercalate (attrs.filterMap (fun a => if isOn a.1 then some a.2 else none) ++ fg ++ bg)

end Color

end FlagLine
