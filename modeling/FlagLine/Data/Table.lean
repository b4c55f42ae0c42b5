/-!
# Tables

A table maps text keys to values and keeps the keys in the order they were first
inserted; inserting under a present key replaces its value in place. Configuration
sections are tables, so that every listing follows the order of the document.
-/

namespace FlagLine

/-- Entries under text keys, in the order the keys were first inserted. -/
abbrev Table (α : Type) := List (String × α)

namespace Table

variable {α : Type}

def find? (t : Table α) (k : String) : Option α :=
  match t with
  | [] => none
  | (k', v) :: rest => if k = k' then some v else find? rest k

def contains (t : Table α) (k : String) : Bool := (t.find? k).isSome

/-- The table with `v` under `k`: in place of the old value, or as a new last entry. -/
def insert (t : Table α) (k : String) (v : α) : Table α :=
  match t with
  | [] => [(k, v)]
  | (k', v') :: rest => if k = k' then (k', v) :: rest else (k', v') :: insert rest k v

/-- The table built by inserting entries one after another. -/
def ofEntries (es : List (String × α)) : Table α := es.foldl (fun t e => t.insert e.1 e.2) []

def keys (t : Table α) : List String := t.map Prod.fst

def values (t : Table α) : List α := t.map Prod.snd

@[simp] theorem find?_nil (k : String) : find? ([] : Table α) k = none := rfl

theorem find?_insert (t : Table α) (k j : String) (v : α) :
    (t.insert k v).find? j = if j = k then some v else t.find? j := by
  induction t with
  | nil => simp [insert, find?]
  | cons e rest ih =>
    obtain ⟨k', v'⟩ := e
    by_cases hk : k = k'
    · subst hk; by_cases hj : j = k <;> simp [insert, find?, hj]
    · by_cases hj : j = k'
      · subst hj; simp [insert, find?, hk, Ne.symm hk]
      · simp [insert, find?, hk, hj, ih]

end Table

end FlagLine
