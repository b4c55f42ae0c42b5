import FlagLine.Validator.Basic
import FlagLine.Text.Glob
/-!
# Completing and checking paths

A partial path is completed from the entries of the directory it names: an entry is
offered when its name starts with the last part of the partial, case aside, when it is
hidden only if the partial asks for hidden names, when a file has one of the allowed
extensions, and when the name passes the exclude and include patterns. A directory is
offered with a slash after it. With several values, only the last one is completed and
the earlier ones are kept. Completions are ordered by name, case aside, or newest or
largest first, ties in listing order. A finished value is valid when each of its paths
exists and every file among them has an allowed suffix.
-/

namespace FlagLine.FileRule

/-- Whether an extension is allowed, as written or in lower case. -/
def allows (r : FileRule) (ext : String) : Bool :=
  r.extensions.contains ext || r.extensions.contains (Text.lowerString ext)

/-- Whether a name is not excluded, and is included when there are include patterns. -/
def passesFilters (r : FileRule) (name : String) : Bool :=
  !(r.excludes.any (fun p => Glob.accepts p name)) &&
    (r.includes.isEmpty || r.includes.any (fun p => Glob.accepts p name))

/-- The values kept before the one being completed, separator included, and that value. -/
def splitValues (r : FileRule) (value : String) : Except ValidatorError (String × String) :=
  if !r.multiple then .ok ("", value)
  else if r.separator.isEmpty then .error .emptySeparator
  else
    match Text.splitLast? r.separator.toList value.toList with
    | some (before, after) => .ok (String.ofList before ++ r.separator, String.ofList after)
    | none => .ok ("", value)

/-- The completion that a directory entry gives for a pattern, if it is offered. -/
def offer (r : FileRule) (pattern : String) (e : Entry) : Option String :=
  let name := e.path.getLast?.getD ""
  let hiddenOk := !name.startsWith "." || pattern.startsWith "."
  let prefixOk := pattern.isEmpty || (Text.lowerString name).startsWith (Text.lowerString pattern)
  let extensionOk := r.extensions.isEmpty || e.kind == .directory || r.allows (Path.extension name)
  if hiddenOk && prefixOk && extensionOk && r.passesFilters name then
    some (if e.kind == .directory then name ++ "/" else name)
  else none

def trimSlashes (c : String) : String :=
  String.ofList (c.toList.reverse.dropWhile (· == '/')).reverse

/-- What the system says of the entry that a completion names in a directory. -/
def entryOf (h : Host) (dir : String) (c : String) : Option Entry :=
  match h.files.stat h.cwd (Path.join dir (Path.basename (trimSlashes c))) with
  | .ok e => some e
  | .error _ => none

/-- Completions in the rule's order: by name, case aside, or newest or largest first.
Any other order keeps the listing's. -/
def order (r : FileRule) (h : Host) (dir : String) (cs : List String) : List String :=
  let key (f : Entry → Nat) (c : String) : Nat := ((entryOf h dir c).map f).getD 0
  match r.sort with
  | "name" => cs.mergeSort (fun a b => decide (Text.lowerString a ≤ Text.lowerString b))
  | "date" => cs.mergeSort (fun a b => decide (key Entry.mtime b ≤ key Entry.mtime a))
  | "size" => cs.mergeSort (fun a b => decide (key Entry.size b ≤ key Entry.size a))
  | _ => cs

/-- The completions of a partial path, seen from a directory. -/
def complete (r : FileRule) (h : Host) (cwd : String) (value : String) :
    Except ValidatorError (List String) := do
  let (kept, search) ← r.splitValues value
  let written := Path.dirname search
  let hasSlash := search.toList.contains '/'
  let dir := if !hasSlash then cwd else if Path.isAbsolute written then written else Path.join cwd written
  let pattern := if hasSlash then Path.basename search else search
  let entries := match h.files.list h.cwd dir with
    | .ok es => es
    | .error _ => []
  let names := entries.filterMap (r.offer pattern)
  let paths := names.map (fun c => if hasSlash && !written.isEmpty then Path.join written c else c)
  let found := r.order h dir (paths.map (kept ++ ·))
  match r.kind with
  | .file => pure found
  | .directory => pure (found.filter (·.endsWith "/"))

/-- Checks the paths of a finished value one by one, skipping blank ones. -/
def checkEach (r : FileRule) (h : Host) (cwd : String) : List String → Verdict
  | [] => {}
  | v :: vs =>
    let v := Text.stripString v
    if v.isEmpty then checkEach r h cwd vs
    else
      let path := Path.join cwd v
      match h.files.statNormal h.cwd path with
      | none => { valid := false, message := s!"File not found: {v}" }
      | some e =>
        let ext := Path.suffix path
        let expected := ", ".intercalate r.extensions
        if !r.extensions.isEmpty && e.kind == .file && !r.allows ext then
          { valid := false, message := s!"Invalid extension: {ext} (expected: {expected})" }
        else checkEach r h cwd vs

/-- Whether a finished value is valid, seen from a directory: each path of a file rule
exists with an allowed suffix; the one path of a directory rule is a directory. -/
def check (r : FileRule) (h : Host) (cwd : String) (value : String) : Except ValidatorError Verdict :=
  match r.kind with
  | .file =>
    if !r.multiple then .ok (r.checkEach h cwd [value])
    else
      match Text.splitOn? r.separator.toList value.toList with
      | some parts => .ok (r.checkEach h cwd (parts.map String.ofList))
      | none => .error .emptySeparator
  | .directory =>
    match h.files.statNormal h.cwd (Path.join cwd value) with
    | none => .ok { valid := false, message := s!"Directory not found: {value}" }
    | some e =>
      if e.kind == .directory then .ok {}
      else .ok { valid := false, message := s!"Not a directory: {value}" }

end FlagLine.FileRule
