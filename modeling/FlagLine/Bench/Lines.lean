import FlagLine.Bench.Basic
import FlagLine.Token.Quoting
import FlagLine.Config.Load
import FlagLine.Config.Lookup
import FlagLine.Editor.Lexer
/-!
# The command-line workloads: words, matches and styles

Three workloads build long command lines from whole copies of a block of words, as many
copies as the size asks for, at least one.

The word workload splits a line of copies of a block that mixes quoting styles,
escapes and an empty word, and measures the words, the line and the line rebuilt with
minimal quoting.

The match workload matches a line with a launcher and a compiler, each block holding two
or more flags of most categories, named groups with and without an optional part, and
words that match nothing. It then finds the duplicates and the words of one category,
asks for the category of one word, and expands a map of categories fully, not at all,
in a configuration without maps, and for a plain category.

The style workload styles a line of blocks of fourteen flags, one of them two words,
plainly, with the lights off but for one category, and with all lights off, and counts
the pieces, beside the number of styles the theme defines. Its configuration holds a
pattern that does not compile.
-/

namespace FlagLine.Bench

open Fingerprint

/-! ## Words -/

/-- The block of the word workload: plain flags, a quoted value inside a word, single and
double quotes, an escaped space, quotes inside a word, and an empty word. -/
def wordBlock : List String :=
  ["gcc", "-O2", "-Wall", "-I/usr/local/include", "-DVERSION=\"1.2.3\"", "'single quoted arg'",
   "\"double\"", "-o", "build/output.o", "src/main.cc", "escaped\\ space", "-lm", "-D'NAME'", "",
   "--sysroot=/opt/toolchains/cross/sysroot/aarch64"]

def wordsRun (n : Nat) : Datum :=
  let line := " ".intercalate ((List.range (copies n wordBlock.length)).flatMap (fun _ => wordBlock))
  let tokens := tokenize line
  list [count tokens.length, count line.length, count (rebuildCommand tokens).length]

def wordsWorkload : Workload :=
  Workload.ofTotal "bench_tokenize_commandlines" "n_tokens" [80, 400, 2000] 400 wordsRun

/-! ## Matches -/

def matchConfigText : String :=
  "\n".intercalate
  ["flags:",
   "  - category: Includes", "    regexps: ['-(I|isystem)(.*)']",
   "  - category: Libraries", "    regexps: ['-(L)(.*)', '-(l)(.+)']",
   "  - category: Optimization", "    regexps: ['-(O)(.*)']",
   "  - category: Debug", "    regexps: ['-(g)(.*)']",
   "  - category: Warnings", "    regexps: ['-(W)(.*)']",
   "  - category: Defines", "    regexps: ['(?P<flag>-D)(?P<name>\\w+)(?:=(?P<value>.*))?']",
   "  - category: Outputs", "    regexps: ['-(o)']",
   "  - category: Sources", "    regexps: ['(?P<stem>\\w+)\\.(?P<ext>c|cpp)']",
   "  - category: Architecture", "    regexps: ['-(march|mtune)=(.*)']",
   "category_maps:",
   "  All: [Compiler, Defines, Sources]",
   "  Compiler: [Includes, Libraries, Outputs, Warnings, Optimization, Debug, Architecture]", ""]

def matchBlock : List String :=
  ["-I/usr/include", "-isystem/opt/include", "-L/usr/lib", "-L/opt/lib", "-lm", "-lpthread", "-O2",
   "-Os", "-g", "-Wall", "-Wextra", "-DNAME=1", "-DDEBUG", "-O3", "-o", "app", "main.c", "util.cpp",
   "-Wno-unused", "-march=native", "--unknown"]

def positions (ns : List Nat) : Datum := list (ns.map count)

def expanded (c : Config) (category : String) (level : Option Int) : Datum :=
  texts ((Config.expandCategory c category level).toOption.getD [])

def matchRun (n : Nat) : Datum :=
  let c := (Config.ofYaml matchConfigText).toOption.getD {}
  let line := "ccache gcc " ++ " ".intercalate
    ((List.range (copies n matchBlock.length)).flatMap (fun _ => matchBlock))
  match Matcher.make c none with
  | .error _ => .none
  | .ok m =>
    match m.matchLine (tokenize line) with
    | .error _ => .none
    | .ok (results, m) =>
      let words := results.map (fun r =>
        tuple [.text r.category, .bool r.isDefault, table (r.namedGroups.map (fun e => (e.1, .text e.2)))])
      list (words ++
        [table ((duplicateFlags results).map (fun e => (e.1, positions e.2))),
         positions (equivalentWords results 2), positions (equivalentWords results (-1)),
         .text (m.matchWord (Token.ofValue "-I/x" 0 4)).category,
         expanded c "All" none, expanded c "All" (some 0), expanded {} "All" none,
         expanded c "Includes" none])

def matchWorkload : Workload :=
  Workload.ofTotal "bench_matcher_pipeline" "n_flags" [40, 120, 480] 120 matchRun

/-! ## Styles -/

def styledCategories : List String :=
  ["Includes", "Libraries", "Optimization", "Debug", "Warnings", "Defines", "Outputs", "Sources",
   "Architecture", "Standard", "Codegen", "Launcher", "Executable", "LauncherArg", "Preprocessor",
   "Linker", "Assembler", "Sanitizers"]

def styleConfigText : String :=
  "\n".intercalate
  (["flags:",
    "  - category: Includes", "    regexps: ['-(I)(.*)']",
    "  - category: Libraries", "    regexps: ['-(L)(.*)', '-(l)(.+)']",
    "  - category: Optimization", "    regexps: ['-(O)(.*)']",
    "  - category: Debug", "    regexps: ['-(g)']",
    "  - category: Warnings", "    regexps: ['-(W)(.*)']",
    "  - category: Defines", "    regexps: ['-(D)(\\w+)=(.*)']",
    "  - category: Outputs", "    regexps: ['-(o)']",
    "  - category: Sources", "    regexps: ['(.*)\\.(c)']",
    "  - category: Architecture", "    regexps: ['-(march)=(.*)']",
    "  - category: Standard", "    regexps: ['-(std)=(.*)']",
    "  - category: Codegen", "    regexps: ['-(f)(.*)']",
    "  - category: Broken", "    regexps: ['([unclosed']",
    "themes:", "  default:", "    default: white", "    categories:"] ++
   styledCategories.map (fun k => "      " ++ k ++ ": red") ++ [""])

/-- The block of the style workload: fourteen flags, one of them with its value apart. -/
def styleBlock : List String :=
  ["-I/usr/include", "-L/usr/lib", "-lm", "-O2", "-g", "-Wall", "-DNAME=1", "-o out", "main.c",
   "-march=native", "-std=c11", "-fPIC", "-pthread", "-Wextra"]

def pieces (lx : Lexer) (line : String) : Datum :=
  match lx.lex none line with
  | .ok l => count l.styled.length
  | .error _ => .none

def styleRun (n : Nat) : RunResult :=
  let c := (Config.ofYaml styleConfigText).toOption.getD {}
  let line := "ccache gcc " ++ " ".intercalate
    ((List.range (copies n styleBlock.length)).flatMap (fun _ => styleBlock)) ++ " "
  match Lexer.make c (c.theme none) none with
  | .error _ => { result := .none }
  | .ok lx =>
    { result := tuple [pieces lx line, pieces (lx.setLights true (some "Includes")) line,
        pieces (lx.setLights true none) line, count lx.styles.length]
      warnings := lx.matcher.warnings }

def styleWorkload : Workload :=
  Workload.ofPure "bench_lexer_highlight" "n_flags" [20, 80, 300] 80 (fun n => pure (styleRun n))

end FlagLine.Bench
