import FlagLine.Text.Basic
/-!
# Slash-separated paths

The text of a path names a file by its parts between slashes; a leading slash starts at
the root. Joining puts a slash between two texts unless the second is absolute; the
directory part of a text is what stands before its last slash, without the slashes that
end it. A name's extension starts at its last point, provided a character other than a
point comes before that point; a suffix, as a normalised path sees it, also needs a
character after the point.
-/

namespace FlagLine.Path

/-- A path text in normal form: no empty or `.` parts and no trailing slash; two leading
slashes stay, more become one; nothing at all is `.`. -/
def normal (s : String) : String :=
  let parts := (s.splitOn "/").filter (fun p => p != "" && p != ".")
  let root := if s.startsWith "//" && !s.startsWith "///" then "//" else if s.startsWith "/" then "/" else ""
  if root.isEmpty && parts.isEmpty then "." else root ++ "/".intercalate parts

def isAbsolute (p : String) : Bool := p.startsWith "/"

/-- The text of `b` taken relative to `a`: `b` itself when absolute. -/
def join (a b : String) : String :=
  if isAbsolute b then b
  else if a.isEmpty || a.endsWith "/" then a ++ b
  else a ++ "/" ++ b

/-- The text up to and including the last slash, and the text after it. -/
def splitLastSlash (cs : List Char) : List Char × List Char :=
  let name := (cs.reverse.takeWhile (· != '/')).reverse
  (cs.take (cs.length - name.length), name)

/-- The directory part of a path text: what comes before the last slash, with the
slashes that end it removed unless it is all slashes. -/
def dirname (p : String) : String :=
  let head := (splitLastSlash p.toList).1
  if head.all (· == '/') then String.ofList head
  else String.ofList (head.reverse.dropWhile (· == '/')).reverse

/-- The last part of a path text: what comes after the last slash. -/
def basename (p : String) : String := String.ofList (splitLastSlash p.toList).2

/-- The extension of the last part of a path text, point included: from the last point,
when a character other than a point precedes it in that part; else empty. -/
def extension (p : String) : String :=
  let name := (splitLastSlash p.toList).2
  let ext := (name.reverse.takeWhile (· != '.')).reverse
  if ext.length = name.length then ""
  else
    let stem := name.take (name.length - ext.length - 1)
    if stem.all (· == '.') then "" else String.ofList ('.' :: ext)

/-- The parts of a path text, without empty parts and the parts that are a single point;
this is the path as a normalised path object holds it. -/
def parts (p : String) : List String :=
  ((Text.splitOnChar '/' p.toList).filter (fun c => !c.isEmpty && c != ['.'])).map String.ofList

/-- The parts of a path text as the system walks them: a text that ends in a slash asks
for a directory, as a final single point does. -/
def walkParts (p : String) : List String :=
  let ps := ((Text.splitOnChar '/' p.toList).filter (fun c => !c.isEmpty)).map String.ofList
  if p.endsWith "/" then ps ++ ["."] else ps

/-- The suffix of a normalised path: the last part from its last point, when that point
is neither the first nor the last character. -/
def suffix (p : String) : String :=
  match (parts p).getLast? with
  | none => ""
  | some name =>
    let cs := name.toList
    let ext := (cs.reverse.takeWhile (· != '.')).reverse
    if ext.length = cs.length || ext.isEmpty || ext.length + 1 = cs.length then ""
    else String.ofList ('.' :: ext)

end FlagLine.Path
