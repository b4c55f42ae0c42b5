import FlagLine.Data.Value
/-!
# Merging configuration data

Merging lays an overriding dictionary over a base one, key by key in the override's order.
Where both sides hold dictionaries under a key they merge in turn, where both hold lists
the override's members follow the base's, and otherwise the override's value replaces the
base's, in the base's place when the key was there and at the end when it was not.
-/

namespace FlagLine

namespace Value

mutual

/-- The entries of `base` with the given entries laid over them, in their order. -/
def mergeEntries (base : List (Value × Value)) : List (Value × Value) → List (Value × Value)
  | [] => base
  | (k, v) :: rest => mergeEntries (mergeOne base k v) rest

/-- The entries of `base` with one entry laid over them. -/
def mergeOne (base : List (Value × Value)) (k v : Value) : List (Value × Value) :=
  match base with
  | [] => [(k, v)]
  | (k', v') :: rest =>
    if sameKey k k' then (k', mergeValue v' v) :: rest else (k', v') :: mergeOne rest k v

/-- The value under a key that both sides hold. -/
def mergeValue (old new : Value) : Value :=
  match old, new with
  | .dict a, .dict b => .dict (mergeEntries a b)
  | .list a, .list b => .list (a ++ b)
  | _, n => n

end

end Value

/-- Two dictionaries merged, the second laid over the first. -/
def deepMerge (base top : List (Value × Value)) : List (Value × Value) :=
  Value.mergeEntries base top

end FlagLine
