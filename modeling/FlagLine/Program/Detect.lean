import FlagLine.Config.Schema
import FlagLine.Regex.Match
import FlagLine.Text.Glob
import FlagLine.Host.Path
import FlagLine.Token.Basic
/-!
# Recognising programs

A program is recognised by the last part of its path, case aside: first by the built-in
rules for common compilers and tools (an exact name, a leading part such as `gcc-`, or a
trailing part such as `-gcc`), then by the programs of a configuration, by name, by a
wildcard alias, by a pattern alias matched at the start of the name, or by a literal
alias; otherwise it is unknown under its own name. A command line may start with
launchers such as `ccache`, each followed by its own flags, some of which take the next
word; the first word after them is the program. The line then splits into the launcher,
its parameters, the program and the program's parameters.
-/

namespace FlagLine

/-- A rule that recognises a program by its name. -/
inductive NameRule where
  | exact (name : String)
  | startsWith (part : String)
  | endsWith (part : String)

def NameRule.holds (name : String) : NameRule → Bool
  | .exact n => name == n
  | .startsWith p => name.startsWith p
  | .endsWith p => name.endsWith p

/-- The built-in programs and the rules that recognise them, in order. -/
def builtinPrograms : List (String × List NameRule) :=
  [("gcc", [.endsWith "-gcc", .endsWith "-g++", .exact "gcc", .exact "g++", .exact "cc", .exact "c++",
      .startsWith "gcc-", .startsWith "g++-"]),
   ("clang", [.endsWith "-clang", .endsWith "-clang++", .exact "clang", .exact "clang++",
      .startsWith "clang-", .startsWith "clang++-"]),
   ("rustc", [.exact "rustc"]),
   ("cargo", [.exact "cargo"]),
   ("go", [.exact "go"]),
   ("python", [.exact "python", .exact "python3", .startsWith "python3.", .exact "python2"]),
   ("make", [.exact "make", .exact "gmake", .exact "bmake"]),
   ("cmake", [.exact "cmake"]),
   ("ninja", [.exact "ninja"]),
   ("ld", [.endsWith "-ld", .exact "ld", .exact "ld.lld", .exact "ld.gold", .exact "ld.bfd"]),
   ("ar", [.endsWith "-ar", .exact "ar", .exact "llvm-ar"]),
   ("as", [.endsWith "-as", .exact "as"])]

/-- The built-in launchers and their flags that take the next word. -/
def builtinLaunchers : List (String × List String) :=
  [("ccache", []), ("distcc", []), ("sccache", []), ("icecc", []), ("colorgcc", []),
   ("scan-build", ["-o", "--use-analyzer", "-enable-checker", "-disable-checker"]),
   ("bear", ["-o", "--output", "-a", "--append"]),
   ("time", ["-f", "-o", "--format", "--output"]),
   ("env", []),
   ("nice", ["-n", "--adjustment"]),
   ("ionice", ["-c", "-n", "-p"])]

/-- Where the name of a recognised program comes from. -/
inductive ProgramSource where
  | builtin
  | config
  | unknown
  deriving DecidableEq, Repr

def ProgramSource.name : ProgramSource → String
  | .builtin => "builtin"
  | .config => "config"
  | .unknown => "unknown"

/-- A launcher found before a program: its name, its place and where its flags end. -/
structure LauncherSpan where
  name : String
  tokenIndex : Nat
  argsEnd : Nat
  deriving DecidableEq, Repr

/-- A recognised program: its name, the name it was written as, where the name comes
from, its place on the command line and the launcher before it. -/
structure ProgramMatch where
  canonical : String
  matched : String
  source : ProgramSource
  tokenIndex : Nat := 0
  launcher : Option LauncherSpan := none
  deriving DecidableEq, Repr

/-- The built-in program that a name is, case aside. -/
def matchBuiltin (basename : String) : Option String :=
  let lower := Text.lowerString basename
  (builtinPrograms.find? (fun p => p.2.any (·.holds lower))).map Prod.fst

/-- Whether an alias of a configured program names a base name: a `glob:` pattern and a
literal alias compare case aside, a `regexp:` pattern matches the start of the name case
aside; a pattern that does not compile names nothing, but one whose count overflows
stops the search. -/
def aliasNames (basename : String) (written : String) : Except Regex.RegexError Bool :=
  if written.startsWith "glob:" then
    .ok (Glob.accepts (Text.lowerString (String.ofList (written.toList.drop 5))) (Text.lowerString basename))
  else if written.startsWith "regexp:" then
    match Regex.parse (String.ofList (written.toList.drop 7)) { ignoreCase := true } with
    | .ok p => .ok (p.matchStart basename).isSome
    | .error .overflow => .error .overflow
    | .error _ => .ok false
  else .ok (Text.lowerString written == Text.lowerString basename)

/-- Whether some alias names a base name, in order. -/
def anyAliasNames (basename : String) : List String → Except Regex.RegexError Bool
  | [] => .ok false
  | a :: rest => do if ← aliasNames basename a then pure true else anyAliasNames basename rest

def matchConfig (basename : String) (c : Config) : Except Regex.RegexError (Option String) :=
  go c.programs
where
  go : List (String × Program) → Except Regex.RegexError (Option String)
    | [] => .ok none
    | (_, p) :: rest => do
      if Text.lowerString p.name == Text.lowerString basename then return some p.name
      if ← anyAliasNames basename p.aliases then return some p.name
      go rest

def detectProgram (executable : String) (c : Config) : Except Regex.RegexError ProgramMatch := do
  let base := Path.basename executable
  match matchBuiltin base with
  | some name => pure { canonical := name, matched := base, source := .builtin }
  | none =>
    match ← matchConfig base c with
    | some name => pure { canonical := name, matched := base, source := .config }
    | none => pure { canonical := base, matched := base, source := .unknown }

/-- The launcher that a base name is, with its flags that take the next word. -/
def isLauncher (basename : String) : Option (String × List String) :=
  let lower := Text.lowerString basename
  builtinLaunchers.find? (fun l => Text.lowerString l.1 == lower)

/-- How many words the flags after a launcher take: a flag of the launcher's that takes
an argument, written without `=`, takes the next word too. -/
def launcherArgCount (withArgs : List String) : List Token → Nat
  | [] => 0
  | t :: rest =>
    if t.value.startsWith "-" then
      let takesArg := withArgs.any (fun f => t.value == f || t.value.startsWith (f ++ "="))
      if takesArg && !t.value.toList.contains '=' then
        match rest with
        | [] => 2
        | _ :: more => 2 + launcherArgCount withArgs more
      else 1 + launcherArgCount withArgs rest
    else 0

/-- The program of a command line from a word on, after the launchers before it; each
launcher uses up one unit of `fuel` and at least one word. -/
def findProgramFrom (c : Config) : Nat → List Token → Nat → Option LauncherSpan →
    Except Regex.RegexError (Option ProgramMatch)
  | 0, _, _, _ => .ok none
  | _ + 1, [], _, _ => .ok none
  | fuel + 1, t :: rest, i, launcher =>
    match isLauncher (Path.basename t.value) with
    | some l =>
      let n := launcherArgCount l.2 rest
      findProgramFrom c fuel (rest.drop n) (i + 1 + n) (some ⟨l.1, i, i + 1 + n⟩)
    | none =>
      match detectProgram t.value c with
      | .ok m => .ok (some { m with tokenIndex := i, launcher := launcher })
      | .error e => .error e

/-- The program of a command line, after any launchers; none for an empty line or one of
launchers only. -/
def findProgram (tokens : List Token) (c : Config) : Except Regex.RegexError (Option ProgramMatch) :=
  findProgramFrom c (tokens.length + 1) tokens 0 none

/-- A command line in four parts, with the range of words of each. -/
structure CommandParts where
  launcher : String := ""
  launcherParameters : String := ""
  program : String := ""
  programParameters : String := ""
  launcherRange : Nat × Nat := (0, 0)
  launcherParametersRange : Nat × Nat := (0, 0)
  programRange : Nat × Nat := (0, 0)
  programParametersRange : Nat × Nat := (0, 0)
  deriving DecidableEq, Repr

/-- The values of words in a range, joined by spaces. -/
def joinValues (tokens : List Token) (lo hi : Nat) : String :=
  " ".intercalate (((tokens.drop lo).take (hi - lo)).map Token.value)

/-- Splits a command line into launcher, launcher parameters, program and program
parameters. -/
def splitCommandLine (tokens : List Token) (c : Config) : Except Regex.RegexError CommandParts := do
  match ← findProgram tokens c with
  | none => pure {}
  | some m =>
    let withLauncher : CommandParts := match m.launcher with
      | some l =>
        let base : CommandParts :=
          { launcher := (tokens.getD l.tokenIndex default).value
            launcherRange := (l.tokenIndex, l.tokenIndex + 1) }
        if l.argsEnd > l.tokenIndex + 1 then
          { base with launcherParameters := joinValues tokens (l.tokenIndex + 1) l.argsEnd
                      launcherParametersRange := (l.tokenIndex + 1, l.argsEnd) }
        else base
      | none => {}
    let i := m.tokenIndex
    let withProgram := { withLauncher with program := (tokens.getD i default).value, programRange := (i, i + 1) }
    if i + 1 < tokens.length then
      pure { withProgram with programParameters := joinValues tokens (i + 1) tokens.length
                              programParametersRange := (i + 1, tokens.length) }
    else pure withProgram

/-- The names of the known programs for completion: built-in, configured and literal
aliases, sorted, each once. -/
def programNames (c : Config) : List String :=
  let configured := c.programs.flatMap (fun e =>
    e.2.name :: e.2.aliases.filter (fun a => !(a.startsWith "glob:" || a.startsWith "regexp:")))
  let all := builtinPrograms.map Prod.fst ++ configured
  (all.mergeSort (fun a b => decide (a ≤ b))).eraseDups

end FlagLine
