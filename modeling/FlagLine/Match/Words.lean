import FlagLine.Program.Detect
import FlagLine.Config.Lookup
/-!
# Giving words their categories

Each pattern of a flag is anchored at both ends and matched at the start of a word; the
patterns are tried category by category, in the order each lower-cased category first
appears among the flags, and the first that matches gives the word its flag's category and
its captures. A capture is named by the pattern's own group name, else by the flag's list
of group names, and a match without captures captures the whole word. A word no pattern
matches is in the `Default` category. The flags are the global ones and those of the
program in use. On a command line the launcher, its flags and the program get categories
of their own, and a recognised program on the line replaces the one the matcher started
with. A pattern that does not compile is set aside and reported, but an alias pattern
that does not compile, or a count too large for any pattern, stops the matcher.
-/

namespace FlagLine

/-- A captured part of a word: its text, where it starts and stops within the word, its
group number (zero for the whole word) and its name. -/
structure Capture where
  value : String
  start : Nat
  stop : Nat
  index : Nat
  name : Option String := none
  deriving Inhabited

def Capture.whole (t : Token) : Capture :=
  { value := t.value, start := 0, stop := t.value.length, index := 0 }

/-- A word with its category, the flag whose pattern matched it and its captures. -/
structure WordMatch where
  token : Token
  category : String
  flag : Option Flag := none
  groups : List Capture := []
  matched : Bool := false
  deriving Inhabited

namespace WordMatch

/-- A word placed in a category by its position rather than by a pattern. -/
def placed (t : Token) (category : String) : WordMatch :=
  { token := t, category := category, groups := [Capture.whole t], matched := true }

def unmatched (t : Token) : WordMatch :=
  { token := t, category := "Default", groups := [Capture.whole t] }

/-- Whether the word fell through to the default category. -/
def isDefault (m : WordMatch) : Bool := Text.lowerString m.category == "default"

def group? (m : WordMatch) (name : String) : Option Capture :=
  m.groups.find? (·.name == some name)

/-- The text of the first capture of a name, or a fallback. -/
def groupValue (m : WordMatch) (name fallback : String) : String :=
  ((m.group? name).map Capture.value).getD fallback

/-- The named captures by name; a later capture of a name gives its value. -/
def namedGroups (m : WordMatch) : Table String :=
  m.groups.foldl (fun t g =>
    match g.name with
    | some n => if n.isEmpty then t else t.insert n g.value
    | none => t) []

end WordMatch

/-- The name of a capture group: the pattern's own name for it, else the flag's name at
its position. -/
def captureName (p : Regex.Pattern) (flag : Flag) (i : Nat) : Option String :=
  match p.names.find? (·.2 == i) with
  | some (n, _) => some n
  | none => flag.captureGroups[i - 1]?

/-- The captures of a match of a word, in group order, skipping groups that took no
part; the whole word when there are none. -/
def captures (p : Regex.Pattern) (flag : Flag) (f : Regex.Found) (t : Token) : List Capture :=
  let found := (List.range p.groups).filterMap (fun j =>
    let i := j + 1
    (f.span? i).map (fun (s, e) =>
      { value := String.ofList ((t.value.toList.drop s).take (e - s)), start := s, stop := e,
        index := i, name := captureName p flag i }))
  if found.isEmpty then [Capture.whole t] else found

/-- Compiled patterns grouped by lower-cased category, in the order the categories first
appear, with the patterns that did not compile. -/
structure PatternSet where
  groups : Table (List (Regex.Pattern × Flag)) := []
  invalid : List String := []
  deriving Inhabited

/-- The compiled patterns of a flag, and those of its patterns that do not compile. -/
def compileFlag (f : Flag) : Except Regex.RegexError (List (Regex.Pattern × Flag) × List String) :=
  f.regexps.foldlM (fun acc r =>
    match Regex.parse ("^" ++ r ++ "$") with
    | .ok p => .ok (acc.1 ++ [(p, f)], acc.2)
    | .error .overflow => .error .overflow
    | .error _ => .ok (acc.1, acc.2 ++ [r])) ([], [])

/-- Adds the patterns of a flag under its lower-cased category. -/
def PatternSet.add (s : PatternSet) (f : Flag) : Except Regex.RegexError PatternSet := do
  let (ps, bad) ← compileFlag f
  let key := Text.lowerString f.category
  let old := (s.groups.find? key).getD []
  pure { groups := s.groups.insert key (old ++ ps), invalid := s.invalid ++ bad }

def PatternSet.ofFlags (flags : List Flag) : Except Regex.RegexError PatternSet :=
  flags.foldlM PatternSet.add {}

/-- The first pattern of a set that matches a word, with the word's captures. -/
def PatternSet.matchWord (s : PatternSet) (t : Token) : WordMatch :=
  let tryAll : List (Regex.Pattern × Flag) → Option WordMatch :=
    List.findSome? (fun (p, flag) =>
      (p.matchStart t.value).map (fun f =>
        { token := t, category := flag.category, flag := some flag,
          groups := captures p flag f t, matched := true }))
  (s.groups.findSome? (fun g => tryAll g.2)).getD (WordMatch.unmatched t)

/-- A matcher: the configuration, the program in use, its compiled patterns and every
pattern that failed to compile so far. -/
structure Matcher where
  config : Config
  program : Option ProgramMatch
  patterns : PatternSet
  warnings : List String
  deriving Inhabited

namespace Matcher

/-- The patterns of the global flags and those of a program. -/
def patternsFor (c : Config) (program : Option ProgramMatch) : Except Regex.RegexError PatternSet := do
  let flags ← c.flagsFor ((program.map ProgramMatch.canonical).getD "")
  PatternSet.ofFlags flags

/-- The matcher of a configuration for an executable, if one is named. -/
def make (c : Config) (executable : Option String) : Except Regex.RegexError Matcher := do
  let program ← match executable with
    | some e => if e.isEmpty then pure none else some <$> detectProgram e c
    | none => pure none
  let ps ← patternsFor c program
  pure { config := c, program := program, patterns := ps, warnings := ps.invalid }

/-- The matcher with another program in use and its patterns compiled. -/
def withProgram (m : Matcher) (pm : ProgramMatch) : Except Regex.RegexError Matcher := do
  let ps ← patternsFor m.config (some pm)
  pure { m with program := some pm, patterns := ps, warnings := m.warnings ++ ps.invalid }

/-- The category of a single word by the patterns alone. -/
def matchWord (m : Matcher) (t : Token) : WordMatch := m.patterns.matchWord t

/-- The categories of the words of a command line. The program found on the line, when
it is a known one, becomes the matcher's program; the launcher, the launcher's flags
and the program are placed by position, and every other word by the patterns. -/
def matchLine (m : Matcher) (tokens : List Token) : Except Regex.RegexError (List WordMatch × Matcher) := do
  if tokens.isEmpty then return ([], m)
  let found ← findProgram tokens m.config
  let m' ← match found with
    | some pm => if pm.source != .unknown then m.withProgram pm else pure m
    | none => pure m
  let programIndex := (found.map ProgramMatch.tokenIndex).getD 0
  let launcher := found.bind ProgramMatch.launcher
  let place (i : Nat) (t : Token) : WordMatch :=
    match launcher with
    | some l =>
      if i == l.tokenIndex then WordMatch.placed t "Launcher"
      else if l.tokenIndex < i && i < l.argsEnd then WordMatch.placed t "LauncherArg"
      else if i == programIndex then WordMatch.placed t "Executable"
      else m'.matchWord t
    | none => if i == programIndex then WordMatch.placed t "Executable" else m'.matchWord t
  pure (tokens.mapIdx place, m')

end Matcher

/-- The positions of the words matched by a flag, by category, keeping only categories
matched more than once. -/
def duplicateFlags (results : List WordMatch) : Table (List Nat) :=
  let all := (results.zipIdx).foldl (fun (t : Table (List Nat)) (r, i) =>
    if r.matched && r.flag.isSome then t.insert r.category ((t.find? r.category).getD [] ++ [i])
    else t) []
  all.filter (fun e => e.2.length > 1)

/-- The positions of the words in the same category as the word at a position; none for a
position outside the line. -/
def equivalentWords (results : List WordMatch) (index : Int) : List Nat :=
  match results[index.toNat]? with
  | some r =>
    if index < 0 then []
    else ((results.zipIdx).filter (fun (s, _) => s.category == r.category)).map Prod.snd
  | none => []

end FlagLine
