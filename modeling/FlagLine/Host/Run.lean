import FlagLine.Host.Files
import FlagLine.Data.Table
import FlagLine.Data.Value
/-!
# Programs on a host

A host is the system that the editor works in: a file tree, a working directory, an
environment, and what the programs on it do when run. A program asked for by a name
with a slash is that path; any other name is looked for in each directory of the
search path in turn. The first error other than a missing file or directory is the
one reported, else the last; it names the program as it was asked for. A working
directory that cannot be entered fails first, and names itself.
-/

namespace FlagLine

/-- A program started at a path, with its arguments, environment and working directory. -/
structure Invocation where
  program : List String
  args : List String
  env : Table String
  cwd : List String

/-- How a run of a program ends: with an exit code and its two outputs, never, or broken
off for a reason that it states. -/
inductive Outcome where
  | exited (code : Int) (stdout stderr : String)
  | stalled
  | failed (reason : String)

/-- The system that the editor works in. Running a program may change the files. -/
structure Host where
  files : FileTree
  cwd : List String
  env : Table String
  tempDir : List String := ["tmp"]
  behaviour : Invocation → FileTree → Except Errno (Outcome × FileTree)

/-- Why a program could not be started, with the name that the error is about. -/
structure SpawnError where
  errno : Errno
  name : String

def SpawnError.message (e : SpawnError) : String :=
  s!"[Errno {e.errno.code}] {e.errno.description}: {quoteText e.name}"

namespace Host

/-- The directories of a search path, in order; an empty part is the working directory. -/
def searchPath (env : Table String) : List String :=
  match env.find? "PATH" with
  | some p => (Text.splitOnChar ':' p.toList).map String.ofList
  | none => ["", "/bin", "/usr/bin"]

/-- The paths that a program name may be run from. -/
def candidates (env : Table String) (name : String) : List String :=
  if name.toList.contains '/' then [name]
  else (searchPath env).map (fun d => Path.join d name)

/-- Runs the program at one candidate path, or says why it cannot be run. -/
def tryRun (h : Host) (files : FileTree) (cwd : List String) (path : String) (args : List String)
    (env : Table String) : Except Errno (Outcome × FileTree) := do
  let e ← files.stat cwd path
  match e.kind with
  | .directory => throw .permissionDenied
  | .file =>
    if !e.executable then throw .permissionDenied
    h.behaviour { program := e.path, args := args, env := env, cwd := cwd } files

/-- Tries candidate paths in turn, keeping the first error that is not a missing file or
directory, and the last error. -/
def tryEach (h : Host) (files : FileTree) (cwd : List String) (args : List String)
    (env : Table String) (saved : Option Errno) (last : Errno) :
    List String → Except Errno (Outcome × FileTree)
  | [] => .error (saved.getD last)
  | p :: ps =>
    match h.tryRun files cwd p args env with
    | .ok r => .ok r
    | .error e =>
      let saved' := match saved with
        | some s => some s
        | none => if e == .notFound || e == .notDirectory then none else some e
      tryEach h files cwd args env saved' e ps

/-- Runs a program by name with its arguments, environment and working directory. -/
def spawn (h : Host) (files : FileTree) (name : String) (args : List String)
    (env : Table String) (cwd : String) : Except SpawnError (Outcome × FileTree) := do
  let dir ← match files.stat h.cwd cwd with
    | .ok e => if e.kind == .directory then pure e.path else throw ⟨.notDirectory, cwd⟩
    | .error e => throw ⟨e, cwd⟩
  match h.tryEach files dir args env none .notFound (candidates env name) with
  | .ok r => pure r
  | .error e => throw ⟨e, name⟩

def cwdText (h : Host) : String := FileTree.render h.cwd

end Host

end FlagLine
