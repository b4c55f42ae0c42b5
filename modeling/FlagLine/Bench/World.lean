import FlagLine.Bench.Basic
import FlagLine.Host.Run
/-!
# The worlds that workloads run in

Workloads that touch files or run programs get a small host of their own under
`/bench`: directories and files made in order, a working directory, a search path, and
programs whose behaviour the workload scripts. Every directory on the way to an entry is
made before it, and an entry made twice is kept once.
-/

namespace FlagLine.Bench

def benchRoot : List String := ["bench"]

def benchBin : List String := benchRoot ++ ["bin"]

def directoryAt (path : List String) : Entry := { path, kind := .directory, size := 4096 }

def fileAt (path : List String) (content : String := "") (executable : Bool := false) : Entry :=
  { path, kind := .file, content, size := content.utf8ByteSize, executable }

def withParents (es : List Entry) : List Entry :=
  let add (acc : List Entry) (e : Entry) : List Entry :=
    if acc.any (·.path == e.path) then acc else acc ++ [e]
  es.foldl (fun acc e =>
    let dirs := (List.range e.path.length).filterMap (fun i =>
      if i + 1 < e.path.length then some (directoryAt (e.path.take (i + 1))) else none)
    add (dirs.foldl add acc) e) []

/-- A host over some entries, working in a directory, looking for programs in one
directory, whose programs behave as given. -/
def hostOf (es : List Entry) (cwd : List String) (bin : List String)
    (behaviour : Invocation → FileTree → Except Errno (Outcome × FileTree)) : Host :=
  { files := { entries := withParents es }, cwd, env := [("PATH", FileTree.render bin)],
    tempDir := benchRoot ++ ["tmp"], behaviour }

def noPrograms : Invocation → FileTree → Except Errno (Outcome × FileTree) :=
  fun _ _ => .error .execFormat

end FlagLine.Bench
