import FlagLine.Text.Case
/-!
# Text operations

Trimming, splitting, joining and replacing, on `List Char` with `String` forms beside
them. Splitting on a separator cuts at its leftmost occurrences that do not overlap;
splitting on blanks drops empty words. Every position is a count of characters.
-/

namespace FlagLine.Text

def dropLeading (p : Char → Bool) : List Char → List Char
  | [] => []
  | c :: r => if p c then dropLeading p r else c :: r

def strip (cs : List Char) : List Char :=
  (dropLeading isBlank (dropLeading isBlank cs).reverse).reverse

def stripString (s : String) : String := String.ofList (strip s.toList)

def startsWith (cs p : List Char) : Bool := p.isPrefixOf cs

def endsWith (cs p : List Char) : Bool := p.reverse.isPrefixOf cs.reverse

def occursIn (p : List Char) : List Char → Bool
  | [] => p.isEmpty
  | c :: r => p.isPrefixOf (c :: r) || occursIn p r

theorem length_drop_lt_of_ne_nil {α : Type} {sep : List α} (h : sep ≠ []) (c : α) (r : List α) :
    ((c :: r).drop sep.length).length < (c :: r).length := by
  have : 0 < sep.length := List.length_pos_iff.mpr h
  simp only [List.length_drop, List.length_cons]
  omega

theorem length_dropWhile_le {α : Type} (p : α → Bool) (l : List α) :
    (l.dropWhile p).length ≤ l.length := by
  induction l with
  | nil => simp
  | cons a t ih =>
    simp only [List.dropWhile]
    split
    · simp only [List.length_cons]
      omega
    · simp

/-- The pieces between the occurrences of `sep`, collecting the current piece in `acc`
in reverse. -/
def splitOnAux (sep : List Char) (h : sep ≠ []) (acc : List Char) : List Char → List (List Char)
  | [] => [acc.reverse]
  | c :: r =>
    if sep.isPrefixOf (c :: r) then
      acc.reverse :: splitOnAux sep h [] ((c :: r).drop sep.length)
    else splitOnAux sep h (c :: acc) r
termination_by cs => cs.length
decreasing_by
  · exact length_drop_lt_of_ne_nil h c r
  · simp

/-- The pieces of `cs` between the occurrences of a nonempty separator; `none` for the
empty separator, which cuts nothing. -/
def splitOn? (sep cs : List Char) : Option (List (List Char)) :=
  if h : sep = [] then none else some (splitOnAux sep h [] cs)

def splitOnChar (sep : Char) (cs : List Char) : List (List Char) :=
  splitOnAux [sep] (by simp) [] cs

/-- The words of a text: its maximal runs of characters that are not blanks. -/
def words (cs : List Char) : List (List Char) :=
  ((cs.splitOnP isBlank).filter (fun w => !w.isEmpty))

/-- The first word of a text and the rest after the blanks that follow it, or `none` for
a text of blanks. The rest keeps its trailing blanks. -/
def firstWord? (cs : List Char) : Option (List Char × List Char) :=
  match dropLeading isBlank cs with
  | [] => none
  | t => some (t.takeWhile (fun c => !isBlank c), dropLeading isBlank (t.dropWhile (fun c => !isBlank c)))

def join (sep : List Char) : List (List Char) → List Char
  | [] => []
  | [p] => p
  | p :: rest => p ++ sep ++ join sep rest

def joinStrings (sep : String) (ps : List String) : String :=
  String.ofList (join sep.toList (ps.map String.toList))

/-- Every occurrence of a nonempty `old`, left to right, replaced by `new`. -/
def replaceAll (old new : List Char) (h : old ≠ []) : List Char → List Char
  | [] => []
  | c :: r =>
    if old.isPrefixOf (c :: r) then new ++ replaceAll old new h ((c :: r).drop old.length)
    else c :: replaceAll old new h r
termination_by cs => cs.length
decreasing_by
  · exact length_drop_lt_of_ne_nil h c r
  · simp

/-- Every occurrence of a character replaced by a text. -/
def replaceChar (old : Char) (new : List Char) (cs : List Char) : List Char :=
  cs.flatMap (fun c => if c = old then new else [c])

/-- The text before the leftmost occurrence of `sep` and the text after it. -/
def splitFirst? (sep : List Char) : List Char → Option (List Char × List Char)
  | [] => if sep.isEmpty then some ([], []) else none
  | c :: r =>
    if sep.isPrefixOf (c :: r) then some ([], (c :: r).drop sep.length)
    else (splitFirst? sep r).map (fun p => (c :: p.1, p.2))

/-- The text before the rightmost occurrence of `sep` and the text after it. -/
def splitLast? (sep cs : List Char) : Option (List Char × List Char) :=
  (splitFirst? sep.reverse cs.reverse).map (fun p => (p.2.reverse, p.1.reverse))

/-- The index of the first occurrence of a character. -/
def indexOf? (c : Char) (cs : List Char) : Option Nat := cs.findIdx? (· == c)

@[simp] theorem join_nil (sep : List Char) : join sep [] = [] := rfl

@[simp] theorem join_singleton (sep p : List Char) : join sep [p] = p := rfl

theorem join_cons_cons (sep p q : List Char) (rest : List (List Char)) :
    join sep (p :: q :: rest) = p ++ sep ++ join sep (q :: rest) := rfl

end FlagLine.Text
