import FlagLine.Host.Path
/-!
# A tree of files

A file tree is a list of entries in the order they were made, each at a path of names
below the root; the root itself is always a directory. A path text is walked part by
part from the root or from a working directory: a point stays, two points go up, and
every name but the last must be a directory. A failed walk says why, by the system's
error numbers. A directory lists its entries in the order they were made.
-/

namespace FlagLine

/-- Why the system refused a path or a program. -/
inductive Errno where
  | notFound
  | notDirectory
  | permissionDenied
  | execFormat
  deriving DecidableEq, Repr

namespace Errno

def code : Errno → Nat
  | .notFound => 2
  | .notDirectory => 20
  | .permissionDenied => 13
  | .execFormat => 8

def description : Errno → String
  | .notFound => "No such file or directory"
  | .notDirectory => "Not a directory"
  | .permissionDenied => "Permission denied"
  | .execFormat => "Exec format error"

end Errno

/-- What an entry of a file tree is. -/
inductive EntryKind where
  | file
  | directory
  deriving DecidableEq, Repr

/-- An entry of a file tree: where it is, what it is, and what the system says of it. -/
structure Entry where
  path : List String
  kind : EntryKind
  size : Nat := 0
  mtime : Nat := 0
  executable : Bool := false
  content : String := ""

/-- The entries of a tree of files, in the order they were made. -/
structure FileTree where
  entries : List Entry := []

namespace FileTree

/-- The entry at a path, the root being a directory. -/
def find? (t : FileTree) (path : List String) : Option Entry :=
  if path.isEmpty then some { path := [], kind := .directory }
  else t.entries.find? (fun e => e.path == path)

/-- The entries directly inside a directory, in the order they were made. -/
def children (t : FileTree) (dir : List String) : List Entry :=
  t.entries.filter (fun e => e.path.dropLast == dir && !e.path.isEmpty)

/-- Walks the parts of a path from a directory: a point stays, two points go up, and a
name goes down, which only a directory allows. -/
def walk (t : FileTree) (cur : List String) : List String → Except Errno (List String)
  | [] => .ok cur
  | p :: ps =>
    if p == "." then walk t cur ps
    else if p == ".." then walk t cur.dropLast ps
    else
      let next := cur ++ [p]
      match t.find? next with
      | none => .error .notFound
      | some e =>
        match e.kind with
        | .directory => walk t next ps
        | .file => if ps.isEmpty then .ok next else .error .notDirectory

/-- The path that a path text names, seen from a working directory, as the system
walks it. The empty text names nothing. -/
def locate (t : FileTree) (cwd : List String) (p : String) : Except Errno (List String) :=
  if p.isEmpty then .error .notFound
  else walk t (if Path.isAbsolute p then [] else cwd) (Path.walkParts p)

/-- The entry that a path text names, seen from a working directory. -/
def stat (t : FileTree) (cwd : List String) (p : String) : Except Errno Entry := do
  let path ← t.locate cwd p
  match t.find? path with
  | some e => pure e
  | none => throw .notFound

/-- The entries of the directory that a path text names. -/
def list (t : FileTree) (cwd : List String) (p : String) : Except Errno (List Entry) := do
  let e ← t.stat cwd p
  match e.kind with
  | .directory => pure (t.children e.path)
  | .file => throw .notDirectory

/-- The entry that a normalised path names, seen from a working directory: a path that
ends in a slash is taken without it. -/
def statNormal (t : FileTree) (cwd : List String) (p : String) : Option Entry :=
  match t.walk (if Path.isAbsolute p then [] else cwd) (Path.parts p) with
  | .ok path => t.find? path
  | .error _ => none

def render (path : List String) : String := "/" ++ "/".intercalate path

/-- The tree with a file written at a path, made or replaced in place. -/
def write (t : FileTree) (path : List String) (content : String) : FileTree :=
  if t.entries.any (fun e => e.path == path) then
    { entries := t.entries.map (fun e =>
        if e.path == path then { e with content := content, size := content.utf8ByteSize } else e) }
  else
    let e : Entry := { path := path, kind := .file, content := content, size := content.utf8ByteSize }
    { entries := t.entries ++ [e] }

def remove (t : FileTree) (path : List String) : FileTree :=
  { entries := t.entries.filter (fun e => e.path != path) }

end FileTree

end FlagLine
