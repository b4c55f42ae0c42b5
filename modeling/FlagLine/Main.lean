import FlagLine.Cli.Run
/-!
# The command line program

Reads the arguments and the environment, builds a host from them and from the main
configuration file as read from disk, and runs the command line on it with the
interactive editor, printing what the run prints and exiting with its code. Files are
read one by one by path, so the host holds no drop-in directory and none is merged.
-/

namespace FlagLine.Cli

/-- The parts of a path seen from a working directory, with `..` going up. -/
def resolve (cwd : List String) (p : String) : List String :=
  let start := if Path.isAbsolute p then [] else cwd
  (Path.parts p).foldl (fun acc part => if part == ".." then acc.dropLast else acc ++ [part]) start

/-- The directories that lead to a path, each as an entry. -/
def ancestors (path : List String) : List Entry :=
  (List.range path.length).filterMap (fun n =>
    if n == 0 then none else some { path := path.take n, kind := .directory })

/-- The entries that reading a file by path found: the file with its text, a directory,
or nothing. -/
def readEntries (cwd : List String) (p : String) : IO (List Entry) := do
  let path := resolve cwd p
  match ← (IO.FS.readFile p).toBaseIO with
  | .ok text =>
    pure (ancestors path ++ [{ path := path, kind := .file, content := text, size := text.utf8ByteSize }])
  | .error (.inappropriateType _ _ _) => pure (ancestors path ++ [{ path := path, kind := .directory }])
  | .error _ => pure []

end FlagLine.Cli

open FlagLine in
def main (args : List String) : IO UInt32 := do
  let env ← ["HOME", "PATH", "EDITOR"].filterMapM (fun k => do pure ((← IO.getEnv k).map (k, ·)))
  let cwd := Path.parts ((← IO.getEnv "PWD").getD "/")
  let files ← match Cli.parse args with
    | .options o => Cli.readEntries cwd (Cli.configPaths env o).1
    | _ => pure []
  let h : Host := { files := { entries := files }, cwd := cwd, env := env,
                    behaviour := fun _ _ => .error .notFound }
  let r := Cli.run h args (Cli.editLine h)
  IO.print r.stdout
  for line in r.stderr do IO.eprintln line
  match r.finish with
  | .returned code => pure code.toUInt32
  | .exited code => pure code.toUInt32
