import FlagLine.Cli.Args
import FlagLine.Config.Load
import FlagLine.Editor.Session
/-!
# Running the command line

The words of the command line to edit are joined with spaces; with none, the run fails
with a usage note. The configuration is loaded from the given file and drop-in
directory, by default `config.yaml` and `conf.d` under `.config/prompt` in the home
directory; a configuration that cannot be loaded fails the run. Colours are turned off
when asked. The line is then edited, and the result is printed when asked. An
interrupted edit ends with code 130 and a failed one with code 1 and its message. The
editor is a parameter, so the same run serves any way of editing; `editLine` is the
interactive editor itself.
-/

namespace FlagLine.Cli

/-- What the command line asks the editor to do: the line, the configuration and the
theme by name. -/
structure EditRequest where
  commandLine : String
  config : Config
  theme : Option String

/-- How editing a line ended. -/
inductive EditResult where
  | edited (line : String)
  | interrupted
  | failed (message : String)
  deriving DecidableEq, Repr, Inhabited

/-- How a run ends: returning a code, or stopping while reading its arguments. -/
inductive Finish where
  | returned (code : Nat)
  | exited (code : Nat)
  deriving DecidableEq, Repr, Inhabited

/-- What a run did: how it ended, what it printed, and what it asked the editor. -/
structure Report where
  finish : Finish
  stdout : String := ""
  stderr : List String := []
  request : Option EditRequest := none

def programName : String := "prompt"

def usage : List String :=
  ["usage: prompt [-h] [--config FILE] [--config-dir DIR] [--theme NAME]",
   "              [--granularity LEVEL] [--no-color] [--print] [--version]",
   "              [command ...]"]

def helpText : String :=
  "\n".intercalate (usage ++ ["", "Interactive command line editor with syntax highlighting", "",
    "positional arguments:",
    "  command               Command line to edit (use -- to separate from options)", "",
    "options:",
    "  -h, --help            show this help message and exit",
    "  --config FILE, -c FILE",
    "                        Configuration file path (default: ~/.config/prompt/config.yaml)",
    "  --config-dir DIR      Drop-in configuration directory (default: ~/.config/prompt/conf.d/)",
    "  --theme NAME, -t NAME",
    "                        Theme to use",
    "  --granularity LEVEL, -g LEVEL",
    "                        Category map expansion level (0=none, default=full)",
    "  --no-color            Disable colors",
    "  --print, -p           Print the result to stdout on exit",
    "  --version, -V         show program's version number and exit", "",
    "Example: prompt -- gcc -I/tmp/foo -o test main.c", ""])

def messageLines (m : String) : List String := m.splitOn "\n"

/-- The configuration file and drop-in directory that options name, by default under
`.config/prompt` in the home directory. -/
def configPaths (env : Table String) (o : Options) : String × String :=
  let home := (Table.find? env "HOME").getD ""
  (o.config.getD (Path.join home ".config/prompt/config.yaml"),
   o.configDir.getD (Path.join home ".config/prompt/conf.d"))

/-- Runs the command line with its arguments on a host, editing with a given editor. -/
def run (h : Host) (args : List String) (edit : EditRequest → EditResult) : Report :=
  match parse args with
  | .help => { finish := .exited 0, stdout := helpText }
  | .version => { finish := .exited 0, stdout := programName ++ " 0.1.0\n" }
  | .error m => { finish := .exited 2, stderr := usage ++ [s!"{programName}: error: {m}"] }
  | .options o =>
    let line := " ".intercalate o.command
    if line.isEmpty then
      { finish := .returned 1,
        stderr := ["Error: No command line provided", "Usage: prompt [options] -- <command line>"] }
    else
      let (main, dropins) := configPaths h.env o
      match Config.load h.files h.cwd main dropins with
      | .error e => { finish := .returned 1, stderr := messageLines s!"Error loading configuration: {e.message}" }
      | .ok c =>
        let c := if o.noColor then { c with settings := { c.settings with color := false } } else c
        let req : EditRequest := ⟨line, c, o.theme⟩
        match edit req with
        | .edited r =>
          { finish := .returned 0, stdout := if o.printResult then r ++ "\n" else "", request := some req }
        | .interrupted => { finish := .returned 130, request := some req }
        | .failed m => { finish := .returned 1, stderr := messageLines s!"Error: {m}", request := some req }

/-- The message of a pattern that does not compile. -/
def regexMessage : Regex.RegexError → String
  | .malformed reason => reason
  | .overflow => "the repetition number is too large"

/-- Edits a line with the interactive editor on a host. -/
def editLine (h : Host) (req : EditRequest) : EditResult :=
  match Editor.make req.config req.theme req.commandLine h with
  | .error e => .failed (regexMessage e)
  | .ok ed =>
    match ed.run with
    | .ok r => .edited r
    | .error err => .failed err.message

end FlagLine.Cli
