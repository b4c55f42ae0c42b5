import FlagLine.Editor.Lexer
/-!
# Showing duplicate flags

Duplicates are the words matched by flags of one category, for categories matched more
than once; each category forms a group, and the groups are ordered by their first word.
One group is current, and within each group one word is current. Moving wraps around
in both directions. Groups can be selected; keeping or deleting acts on the selected
groups, or on the current group when none is selected. After words are deleted the
groups are found again from the new line: selections carry over by category and each
group starts again at its first word.
-/

namespace FlagLine

/-- A group of duplicate words: their category, their positions on the line, whether the
group is selected, and which of its words is current. -/
structure DuplicateGroup where
  category : String
  indices : List Nat
  selected : Bool := false
  currentIndex : Nat := 0
  deriving DecidableEq, Repr, Inhabited

/-- The position of the current word of a group. -/
def DuplicateGroup.current? (g : DuplicateGroup) : Option Nat := g.indices[g.currentIndex]?

/-- The duplicates shown: the groups and which one is current. -/
structure Duplicates where
  groups : List DuplicateGroup
  currentGroup : Nat := 0
  deriving DecidableEq, Repr, Inhabited

namespace Duplicates

/-- The groups of a table of duplicates, ordered by first word, selecting the groups of
some categories. -/
def groupsOf (dups : Table (List Nat)) (selected : List String) : List DuplicateGroup :=
  (dups.map (fun e => ({ category := e.1, indices := e.2, selected := selected.contains e.1 } : DuplicateGroup))).mergeSort
    (fun a b => decide (a.indices.headD 0 ≤ b.indices.headD 0))

/-- The duplicates of a table, with the first group current. -/
def ofTable (dups : Table (List Nat)) : Duplicates := ⟨groupsOf dups [], 0⟩

def current? (d : Duplicates) : Option DuplicateGroup := d.groups[d.currentGroup]?

/-- The position of the current word of the current group. -/
def currentIndex? (d : Duplicates) : Option Nat := d.current?.bind DuplicateGroup.current?

def selectedGroups (d : Duplicates) : List DuplicateGroup := d.groups.filter (·.selected)

def view (d : Duplicates) : DuplicateView :=
  { highlighted := d.groups.flatMap (·.indices), current := d.currentIndex?,
    selected := d.selectedGroups.flatMap (·.indices) }

def updateCurrent (d : Duplicates) (f : DuplicateGroup → DuplicateGroup) : Duplicates :=
  { d with groups := d.groups.mapIdx (fun i g => if i = d.currentGroup then f g else g) }

/-- Moves to the next word of the current group, wrapping around. -/
def nextWord (d : Duplicates) : Duplicates :=
  d.updateCurrent (fun g =>
    if g.indices.isEmpty then g else { g with currentIndex := (g.currentIndex + 1) % g.indices.length })

/-- Moves to the previous word of the current group, wrapping around. -/
def previousWord (d : Duplicates) : Duplicates :=
  d.updateCurrent (fun g =>
    if g.indices.isEmpty then g
    else { g with currentIndex := (g.currentIndex + g.indices.length - 1) % g.indices.length })

def nextGroup (d : Duplicates) : Duplicates :=
  if d.groups.isEmpty then d else { d with currentGroup := (d.currentGroup + 1) % d.groups.length }

def previousGroup (d : Duplicates) : Duplicates :=
  if d.groups.isEmpty then d
  else { d with currentGroup := (d.currentGroup + d.groups.length - 1) % d.groups.length }

def selectCurrent (d : Duplicates) (on : Bool) : Duplicates :=
  d.updateCurrent (fun g => { g with selected := on })

def selectAll (d : Duplicates) (on : Bool) : Duplicates :=
  { d with groups := d.groups.map (fun g => { g with selected := on }) }

/-- The groups that keeping acts on: the selected ones, else the current one. -/
def acted (d : Duplicates) : List DuplicateGroup :=
  match d.selectedGroups with
  | [] => d.current?.toList
  | gs => gs

/-- The words to delete to keep only the current word of each group acted on. -/
def keepCurrentDeletes (d : Duplicates) : List Nat :=
  d.acted.flatMap (fun g => g.indices.filter (fun i => some i != g.current?))

/-- The words to delete to keep only the first word of each group acted on. -/
def keepFirstDeletes (d : Duplicates) : List Nat := d.acted.flatMap (fun g => g.indices.drop 1)

/-- Takes the current word out of the current group, keeping its current position on the
group's words; none when the group has one word or less. -/
def takeCurrent (d : Duplicates) : Option (Nat × Duplicates) := do
  let g ← d.current?
  if g.indices.length ≤ 1 then none
  let i ← g.current?
  let rest := g.indices.erase i
  let ci := if g.currentIndex ≥ rest.length then rest.length - 1 else g.currentIndex
  pure (i, d.updateCurrent (fun g => { g with indices := rest, currentIndex := ci }))

/-- The groups found again from a new table: selections carry over by category, and the
current group stays unless it is past the last. -/
def refresh (d : Duplicates) (dups : Table (List Nat)) : Duplicates :=
  let gs := groupsOf dups (d.selectedGroups.map (·.category))
  ⟨gs, if d.currentGroup ≥ gs.length then gs.length - 1 else d.currentGroup⟩

end Duplicates

end FlagLine
