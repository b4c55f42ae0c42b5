import FlagLine.Text.Case
/-!
# Keys

A key specification such as `ctrl-a`, `alt-b` or `enter` names a key of the terminal
layer, a sequence of keys (an `alt-` key is escape followed by the letter), or, when it
is none of the known names, stands as written. The known names are looked up case aside;
`ctrl-shift-` with one letter or digit is the control key of that character. Binding a
specification checks each of its keys: a known key name, after the aliases `backspace`,
`enter`, `tab` and `c-space` and the word `space`, or a single character; anything else
is an invalid key.
-/

namespace FlagLine.Keys

/-- One key of a specification: a named key of the terminal layer, or text that still has
to be recognised when it is bound. -/
inductive Stroke where
  | named (name : String)
  | text (s : String)
  deriving DecidableEq, Repr, Inhabited

/-- What a key specification stands for: one key or a sequence of keys. -/
inductive KeySpec where
  | one (s : Stroke)
  | sequence (ss : List Stroke)
  deriving DecidableEq, Repr, Inhabited

def KeySpec.strokes : KeySpec → List Stroke
  | .one s => [s]
  | .sequence ss => ss

def letters : List Char := "abcdefghijklmnopqrstuvwxyz".toList

/-- The names of the keys the terminal layer knows. -/
def keyNames : List String :=
  let ctrl := letters.map (fun c => "c-" ++ c.toString)
  let digits := "1234567890".toList.map Char.toString
  let moves := ["left", "right", "up", "down", "home", "end", "insert", "delete", "pageup", "pagedown"]
  let fn := (List.range 24).map (fun i => "f" ++ toString (i + 1))
  ["escape", "s-escape", "c-@"] ++ ctrl ++ digits.map ("c-" ++ ·) ++ digits.map ("c-s-" ++ ·) ++
    ["c-\\", "c-]", "c-^", "c-_"] ++ moves ++ moves.map ("c-" ++ ·) ++ moves.map ("s-" ++ ·) ++
    moves.map ("c-s-" ++ ·) ++ ["s-tab"] ++ fn ++ fn.map ("c-" ++ ·) ++
    ["<any>", "<scroll-up>", "<scroll-down>", "<cursor-position-response>", "<vt100-mouse-event>",
     "<windows-mouse-event>", "<bracketed-paste>", "<sigint>", "<ignore>"]

/-- Other names the terminal layer accepts for some keys. -/
def keyAliases : List (String × String) :=
  [("backspace", "c-h"), ("c-space", "c-@"), ("enter", "c-m"), ("tab", "c-i"),
   ("s-c-left", "c-s-left"), ("s-c-right", "c-s-right"), ("s-c-home", "c-s-home"),
   ("s-c-end", "c-s-end")]

def keyTable : List (String × KeySpec) :=
  letters.map (fun c => ("ctrl-" ++ c.toString, .one (.named ("c-" ++ c.toString)))) ++
  [("ctrl-_", .one (.named "c-_")), ("ctrl-\\", .one (.named "c-\\")),
   ("ctrl-]", .one (.named "c-]")), ("ctrl-^", .one (.named "c-^"))] ++
  letters.map (fun c => ("alt-" ++ c.toString, .sequence [.named "escape", .text c.toString])) ++
  [("alt-backspace", .sequence [.named "escape", .named "c-h"]),
   ("enter", .one (.named "c-m")), ("return", .one (.named "c-m")), ("tab", .one (.named "c-i")),
   ("backspace", .one (.named "c-h")), ("delete", .one (.named "delete")),
   ("escape", .one (.named "escape")), ("up", .one (.named "up")), ("down", .one (.named "down")),
   ("left", .one (.named "left")), ("right", .one (.named "right")), ("home", .one (.named "home")),
   ("end", .one (.named "end")), ("pageup", .one (.named "pageup")),
   ("pagedown", .one (.named "pagedown")), ("insert", .one (.named "insert")),
   ("space", .one (.text " "))] ++
  (List.range 12).map (fun i => ("f" ++ toString (i + 1), .one (.named ("f" ++ toString (i + 1)))))

/-- The control key of a character whose capital is an ASCII letter or digit. -/
def controlOf? (c : Char) : Option String :=
  let u := Text.upperChar c
  if 'A' ≤ u && u ≤ 'Z' then some ("c-" ++ (Char.ofNat (u.toNat + 32)).toString)
  else if '0' ≤ u && u ≤ '9' then some ("c-" ++ u.toString)
  else none

def parse (spec : String) : KeySpec :=
  let lower := Text.lowerString spec
  match keyTable.lookup lower with
  | some k => k
  | none =>
    let shifted : Option String :=
      if lower.startsWith "ctrl-shift-" then
        match lower.toList.drop 11 with
        | [c] => controlOf? c
        | _ => none
      else none
    match shifted with
    | some name => .one (.named name)
    | none => .one (.text spec)

/-- The name a stroke is bound under, or the message of an invalid key. -/
def Stroke.bind : Stroke → Except String String
  | .named n => .ok n
  | .text s =>
    let s := (keyAliases.lookup s).getD s
    let s := if s == "space" then " " else s
    if keyNames.contains s || s.length == 1 then .ok s else .error s!"Invalid key: {s}"

def KeySpec.bind (k : KeySpec) : Except String (List String) := k.strokes.mapM Stroke.bind

end FlagLine.Keys
