import FlagLine.Text.Basic
/-!
# The edit buffer

The buffer holds one line of text and a cursor between its characters. The cursor never
leaves the text: setting it clamps it to the line, and replacing the text pulls it back
to the new end when it was beyond it. Deleting at the cursor removes characters after
it and leaves it in place; deleting before it removes the character to its left and
moves it back by one; inserting puts text at the cursor and moves it past the text.
-/

namespace FlagLine

/-- A line of text and a cursor, counted in characters. -/
structure Buffer where
  text : List Char
  cursor : Nat
  deriving DecidableEq, Repr, Inhabited

namespace Buffer

/-- A buffer holding a text, with the cursor at its end. -/
def ofText (s : String) : Buffer := ⟨s.toList, s.length⟩

def line (b : Buffer) : String := String.ofList b.text

/-- The buffer with the cursor at a position, clamped to the text. -/
def moveTo (b : Buffer) (n : Int) : Buffer :=
  { b with cursor := min n.toNat b.text.length }

/-- The buffer with another text; the cursor moves back to its end when it was beyond. -/
def replace (b : Buffer) (s : List Char) : Buffer := ⟨s, min b.cursor s.length⟩

def delete (b : Buffer) (count : Nat) : Buffer :=
  if b.cursor < b.text.length then b.replace (b.text.take b.cursor ++ b.text.drop (b.cursor + count))
  else b

/-- Deletes the character before the cursor and moves the cursor back over it. -/
def deleteBefore (b : Buffer) : Buffer :=
  if b.cursor > 0 then ⟨b.text.take (b.cursor - 1) ++ b.text.drop b.cursor, b.cursor - 1⟩ else b

/-- Inserts text at the cursor and moves the cursor past it. -/
def insert (b : Buffer) (s : List Char) : Buffer :=
  ⟨b.text.take b.cursor ++ s ++ b.text.drop b.cursor, b.cursor + s.length⟩

theorem moveTo_cursor_le (b : Buffer) (n : Int) : (b.moveTo n).cursor ≤ b.text.length :=
  Nat.min_le_right _ _

theorem replace_cursor_le (b : Buffer) (s : List Char) : (b.replace s).cursor ≤ s.length :=
  Nat.min_le_right _ _

end Buffer

end FlagLine
