import FlagLine.Editor.Duplicates
import FlagLine.Editor.Completer
import FlagLine.Editor.Bindings
import FlagLine.Editor.Buffer
import FlagLine.Host.Run
/-!
# The editor

The editor holds a line in a buffer, the lexer that styles it, the completer, and the
mode it is in: normal, or showing duplicates. Its matcher starts from the line's first
word and is shared with the completer for as long as the lexer keeps it; styling the
line or finding its duplicates may change the matcher's program. Commands move the
cursor by characters, words and parameters, delete in the same steps, toggle the
lights, enter, walk and leave the duplicates, hand the line to an external editor, or
ask to quit. Undoing finds nothing recorded, since only the key handlers of the application
record the line, and so changes nothing. Pasting inserts the clipboard of the application
at the cursor, and without an application fails with the message of the missing
clipboard. Running the editor sets up its key bindings and its style; a style class with a
colon in it is refused, so running stops there.
-/

namespace FlagLine

/-- The mode of the editor. -/
inductive Mode where
  | normal
  | duplicates
  deriving DecidableEq, Repr, Inhabited

def Mode.name : Mode → String
  | .normal => "normal"
  | .duplicates => "duplicates"

/-- The application an editor runs in: what its clipboard holds. Its key handlers record
the line before each key pressed, so a command run directly has nothing to undo. -/
structure Application where
  clipboard : String := ""
  deriving DecidableEq, Repr, Inhabited

/-- The state of the editor. The completer's matcher is the lexer's for as long as
`shared` holds; an editor that runs without an application has no clipboard to paste. -/
structure Editor where
  config : Config
  theme : Theme
  initialText : String
  lexer : Lexer
  completer : Matcher
  shared : Bool := true
  buffer : Buffer
  mode : Mode := .normal
  duplicates : Option Duplicates := none
  host : Host
  application : Option Application := none

/-- Why a step of the editor could not be carried out. -/
inductive StepError where
  | regex (e : Regex.RegexError)
  | ambiguous (message : String)
  | unsupported (command : String)

/-- Why running the editor stopped. -/
inductive RunError where
  | keys (message : String)
  | style (styleClass : String)

/-- The message of a stopped run: the key problem, or the refused class in quotes. -/
def RunError.message : RunError → String
  | .keys m => m
  | .style cls => quoteText cls

namespace Editor

/-- The editor of a line, with the cursor at its end and a theme by name. -/
def make (c : Config) (theme : Option String) (text : String) (h : Host) : Except Regex.RegexError Editor := do
  let t := c.theme theme
  let executable := (tokenize text).head?.map Token.value
  let lx ← Lexer.make c t executable
  pure { config := c, theme := t, initialText := text, lexer := lx, completer := lx.matcher,
         buffer := Buffer.ofText text, host := h }

def tokens (e : Editor) : List Token := tokenize e.buffer.line

/-- The editor with the lexer's matcher changed in place. -/
def withMatcher (e : Editor) (m : Matcher) : Editor :=
  { e with lexer := { e.lexer with matcher := m }, completer := if e.shared then m else e.completer }

/-- The categories of the line's words; the matcher may take the line's program. -/
def matchResults (e : Editor) : Except Regex.RegexError (List WordMatch × Editor) := do
  let (rs, m) ← e.lexer.matcher.matchLine e.tokens
  pure (rs, e.withMatcher m)

def styled (e : Editor) : Except Regex.RegexError (Styled × Editor) := do
  let lexed ← e.lexer.lex (e.duplicates.map Duplicates.view) e.buffer.line
  let shared := e.shared && !lexed.renewed
  pure (lexed.styled,
    { e with lexer := lexed.lexer, shared := shared, completer := if shared then lexed.lexer.matcher else e.completer })

def complete (e : Editor) : Except ValidatorError Offers :=
  Completer.complete e.config e.completer e.host e.buffer.line e.buffer.cursor

def edit (e : Editor) (f : Buffer → Buffer) : Editor := { e with buffer := f e.buffer }

/-- Whether a character separates words for the word commands. -/
def isGap (c : Char) : Bool := c == ' ' || c == '\t'

/-- The start of the word before a position: back over gaps, then over the word. -/
def wordStartBefore (text : List Char) (pos : Nat) : Nat :=
  let before := (text.take pos).reverse
  let gaps := (before.takeWhile isGap).length
  let word := ((before.drop gaps).takeWhile (fun c => !isGap c)).length
  pos - gaps - word

/-- The end of the word from a position: over the word, then over the gaps after it. -/
def wordEndFrom (text : List Char) (pos : Nat) : Nat :=
  let after := text.drop pos
  let word := (after.takeWhile (fun c => !isGap c)).length
  let gaps := ((after.drop word).takeWhile isGap).length
  pos + word + gaps

/-- Enters the duplicates mode when the line has duplicates. -/
def enterDuplicates (e : Editor) : Except Regex.RegexError Editor := do
  let (rs, e) ← e.matchResults
  let dups := duplicateFlags rs
  if dups.isEmpty then pure e
  else pure { e with duplicates := some (Duplicates.ofTable dups), mode := .duplicates }

def exitDuplicates (e : Editor) : Editor := { e with duplicates := none, mode := .normal }

/-- Moves the cursor to the start of the current duplicate. -/
def toCurrentDuplicate (e : Editor) : Editor :=
  match (e.duplicates.bind Duplicates.currentIndex?).bind (fun i => e.tokens[i]?) with
  | some t => e.edit (·.moveTo t.start)
  | none => e

def refreshDuplicates (e : Editor) : Except Regex.RegexError Editor := do
  let (rs, e) ← e.matchResults
  pure { e with duplicates := e.duplicates.map (·.refresh (duplicateFlags rs)) }

/-- Deletes the words at some positions, joining the others with single spaces, and finds
the duplicates again. -/
def deleteWords (e : Editor) (positions : List Nat) : Except Regex.RegexError Editor :=
  if positions.isEmpty then pure e
  else
    let kept := e.tokens.zipIdx.filterMap (fun (t, i) => if positions.contains i then none else some t.raw)
    (e.edit (·.replace (" ".intercalate kept).toList)).refreshDuplicates

/-- Applies a change to the duplicates shown, if any. -/
def onDuplicates (e : Editor) (f : Duplicates → Except Regex.RegexError Editor) :
    Except Regex.RegexError Editor :=
  match e.duplicates with
  | some d => f d
  | none => pure e

/-- Text read back as lines: a carriage return, alone or before a newline, ends a line. -/
def readLines : List Char → List Char
  | [] => []
  | '\r' :: '\n' :: rest => '\n' :: readLines rest
  | '\r' :: rest => '\n' :: readLines rest
  | c :: rest => c :: readLines rest

/-- Hands the line to the external editor in a temporary file and reads it back, stripped
of blanks at both ends; an editor that fails leaves the line alone, and one that cannot
be started is the message of the failure. -/
def externalEdit (e : Editor) : Editor × Option String :=
  let program := (Table.find? e.host.env "EDITOR").getD "vi"
  let path := e.host.tempDir ++ ["command-line.sh"]
  let files := e.host.files.write path e.buffer.line
  match e.host.spawn files program [FileTree.render path] e.host.env e.host.cwdText with
  | .error err => ({ e with host := { e.host with files := e.host.files } }, some err.message)
  | .ok (outcome, after) =>
    let done := { e with host := { e.host with files := after.remove path } }
    match outcome, after.find? path with
    | .exited 0 _ _, some f => (done.edit (·.replace (Text.strip (readLines f.content.toList))), none)
    | .failed reason, _ => (done, some reason)
    | _, _ => (done, none)

/-- The outcome of a command that succeeded without asking to quit. -/
def done (e : Editor) : Except StepError (Commands.Outcome × Editor) := .ok ({}, e)

def perform (e : Editor) (command : String) (args : List String) :
    Except StepError (Commands.Outcome × Editor) :=
  let b := e.buffer
  let len := b.text.length
  let regex (r : Except Regex.RegexError Editor) : Except StepError (Commands.Outcome × Editor) :=
    match r with
    | .ok e => done e
    | .error err => .error (.regex err)
  match command with
  | "move-char-left" => done (if b.cursor > 0 then e.edit (·.moveTo (b.cursor - 1)) else e)
  | "move-char-right" => done (if b.cursor < len then e.edit (·.moveTo (b.cursor + 1)) else e)
  | "move-word-left" => done (e.edit (·.moveTo (wordStartBefore b.text b.cursor)))
  | "move-word-right" => done (e.edit (·.moveTo (wordEndFrom b.text b.cursor)))
  | "move-line-start" => done (e.edit (·.moveTo 0))
  | "move-line-end" => done (e.edit (·.moveTo len))
  | "move-param-next" =>
    done (match e.tokens.find? (·.start > b.cursor) with
      | some t => e.edit (·.moveTo t.start)
      | none => e)
  | "move-param-prev" =>
    done (match e.tokens.reverse.find? (·.stop ≤ b.cursor) with
      | some t => e.edit (·.moveTo t.start)
      | none => e)
  | "delete-char" => done (if b.cursor < len then e.edit (·.delete 1) else e)
  | "delete-char-left" => done (if b.cursor > 0 then e.edit Buffer.deleteBefore else e)
  | "delete-word-left" =>
    let pos := wordStartBefore b.text b.cursor
    done (if pos < b.cursor then e.edit (fun b => (b.moveTo pos).delete (b.cursor - pos)) else e)
  | "delete-word-right" =>
    let stop := wordEndFrom b.text b.cursor
    done (if stop > b.cursor then e.edit (·.delete (stop - b.cursor)) else e)
  | "delete-param" =>
    done (match e.tokens.find? (fun t => t.start ≤ b.cursor && b.cursor < t.stop) with
      | some t =>
        let gaps := ((b.text.drop t.stop).takeWhile isGap).length
        e.edit (fun b => (b.moveTo t.start).delete (t.stop - t.start + gaps))
      | none => e)
  | "delete-to-end" => done (if len > b.cursor then e.edit (·.delete (len - b.cursor)) else e)
  | "delete-to-start" => done (if b.cursor > 0 then e.edit (fun b => (b.moveTo 0).delete b.cursor) else e)
  | "undo" => done e
  | "paste" =>
    match e.application with
    | some a => done (e.edit (·.insert a.clipboard.toList))
    | none => .ok ({ success := false, message := "'NoneType' object has no attribute 'clipboard'" }, e)
  | "editor" =>
    match e.externalEdit with
    | (e, none) => done e
    | (e, some m) => .ok ({ success := false, message := m }, e)
  | "lights-off" => done { e with lexer := e.lexer.toggleLights args.head? }
  | "show-duplicates" => regex e.enterDuplicates
  | "quit" =>
    .ok ({ exitEditor := true, printResult := args.contains "-p", resetBeforePrint := args.contains "-r" }, e)
  | "duplicate-prev" => regex (e.onDuplicates (fun d => pure { e with duplicates := some d.previousWord }.toCurrentDuplicate))
  | "duplicate-next" => regex (e.onDuplicates (fun d => pure { e with duplicates := some d.nextWord }.toCurrentDuplicate))
  | "duplicate-previous-group" =>
    regex (e.onDuplicates (fun d => pure { e with duplicates := some d.previousGroup }.toCurrentDuplicate))
  | "duplicate-next-group" =>
    regex (e.onDuplicates (fun d => pure { e with duplicates := some d.nextGroup }.toCurrentDuplicate))
  | "duplicate-select" => regex (e.onDuplicates (fun d => pure { e with duplicates := some (d.selectCurrent true) }))
  | "duplicate-deselect" => regex (e.onDuplicates (fun d => pure { e with duplicates := some (d.selectCurrent false) }))
  | "duplicate-all" => regex (e.onDuplicates (fun d => pure { e with duplicates := some (d.selectAll true) }))
  | "duplicate-none" => regex (e.onDuplicates (fun d => pure { e with duplicates := some (d.selectAll false) }))
  | "duplicates-keep" => regex (e.onDuplicates (fun d => e.deleteWords d.keepCurrentDeletes))
  | "duplicates-delete" =>
    regex (e.onDuplicates (fun d =>
      match d.takeCurrent with
      | some (i, d') => { e with duplicates := some d' }.deleteWords [i]
      | none => pure e))
  | "duplicates-first" => regex (e.onDuplicates (fun d => e.deleteWords d.keepFirstDeletes))
  | "duplicates-exit" => done e.exitDuplicates
  | _ => done e

/-- Runs a command by name or abbreviation among the built-in commands and commands
registered after them, each of which fails with its message; an unknown name fails with
a message of its own. -/
def executeAmong (registered : Table String) (e : Editor) (name : String) (args : List String) :
    Except StepError (Commands.Outcome × Editor) :=
  match Commands.lookupIn (Commands.names ++ registered.keys) name with
  | .error m => .error (.ambiguous m)
  | .ok none => .ok ({ success := false, message := s!"Unknown command: {name}" }, e)
  | .ok (some command) =>
    match registered.find? command with
    | some m => .ok ({ success := false, message := m }, e)
    | none => e.perform command args

/-- Runs a built-in command by name or abbreviation; an unknown name fails with a message. -/
def execute (e : Editor) (name : String) (args : List String) :
    Except StepError (Commands.Outcome × Editor) :=
  e.executeAmong [] name args

def keyBindings (e : Editor) : Except String (List Binding) := do
  let k ← KeyMap.ofConfig e.config
  pure (k.forMode e.mode.name)

/-- Runs the editor: its key bindings are set up, then its style, whose first class is
refused for its colon; with no classes at all the line would be returned. -/
def run (e : Editor) : Except RunError String := do
  let _ ← (KeyMap.ofConfig e.config).mapError RunError.keys
  match e.lexer.styles.head? with
  | some (cls, _) => throw (.style cls)
  | none => pure e.buffer.line

end Editor

end FlagLine
