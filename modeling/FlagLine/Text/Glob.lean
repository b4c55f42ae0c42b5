import FlagLine.Text.Basic
/-!
# Shell-style wildcard patterns

A pattern matches a whole name: `*` matches any run of characters, `?` any one
character, and a bracket matches one character of a set. In a bracket, a leading `!`
negates the set, a `]` right after the opening (or after the `!`) is a member, and `a-z`
is a range; a range that is empty holds nothing, and a `-` that cannot make a range is a
member. A `[` without its closing `]` is an ordinary character. Case counts.
-/

namespace FlagLine.Glob

/-- One piece of a wildcard pattern. -/
inductive Piece where
  | anyRun
  | anyChar
  | oneOf (negated : Bool) (ranges : List (Char × Char))
  | literal (c : Char)
  deriving Repr

/-- The ranges of the members of a bracket: a character, a `-` and a character make a
range, and any other character stands for itself. -/
def bracketRanges : List Char → List (Char × Char)
  | a :: '-' :: b :: rest => (a, b) :: bracketRanges rest
  | a :: rest => (a, a) :: bracketRanges rest
  | [] => []

/-- Where a bracket opened just before `cs` starts: whether it is negated, the `]` that is
a member because it comes first, and the text after those. -/
def bracketStart (cs : List Char) : Bool × List Char × List Char :=
  let negated := cs.head? == some '!'
  let afterBang := if negated then cs.drop 1 else cs
  if afterBang.head? == some ']' then (negated, [']'], afterBang.drop 1)
  else (negated, [], afterBang)

theorem length_bracketStart_le (cs : List Char) : (bracketStart cs).2.2.length ≤ cs.length := by
  unfold bracketStart
  simp only
  split <;> split <;> simp

/-- The members of a bracket up to its closing `]`, and what follows it; `none` when it
is not closed. -/
def closeBracket (rest : List Char) : Option (List Char × List Char) :=
  match rest.dropWhile (· != ']') with
  | [] => none
  | _ :: after => some (rest.takeWhile (· != ']'), after)

theorem length_closeBracket_lt {rest body after : List Char}
    (h : closeBracket rest = some (body, after)) : after.length < rest.length := by
  unfold closeBracket at h
  split at h
  · simp at h
  · rename_i x xs heq
    simp only [Option.some.injEq, Prod.mk.injEq] at h
    obtain ⟨-, rfl⟩ := h
    have h1 := congrArg List.length heq
    have h2 := Text.length_dropWhile_le (· != ']') rest
    simp only [List.length_cons] at h1
    omega

def pieces : List Char → List Piece
  | [] => []
  | '*' :: rest => .anyRun :: pieces rest
  | '?' :: rest => .anyChar :: pieces rest
  | '[' :: rest =>
    let start := bracketStart rest
    match h : closeBracket start.2.2 with
    | some (body, after) =>
      have : after.length < rest.length + 1 :=
        Nat.lt_succ_of_lt (Nat.lt_of_lt_of_le (length_closeBracket_lt h) (length_bracketStart_le rest))
      .oneOf start.1 (bracketRanges (start.2.1 ++ body)) :: pieces after
    | none => .literal '[' :: pieces rest
  | c :: rest => .literal c :: pieces rest
termination_by cs => cs.length

/-- Whether a character is in one of the ranges. -/
def inRanges (c : Char) (rs : List (Char × Char)) : Bool := rs.any (fun r => r.1 ≤ c && c ≤ r.2)

/-- Whether a name is matched by the pieces of a pattern. -/
def matchPieces : List Piece → List Char → Bool
  | [], s => s.isEmpty
  | .anyRun :: ps, s =>
    matchPieces ps s ||
      (match s with
       | [] => false
       | _ :: r => matchPieces (.anyRun :: ps) r)
  | .anyChar :: ps, s =>
    match s with
    | [] => false
    | _ :: r => matchPieces ps r
  | .oneOf n rs :: ps, s =>
    match s with
    | [] => false
    | c :: r => inRanges c rs != n && matchPieces ps r
  | .literal l :: ps, s =>
    match s with
    | [] => false
    | c :: r => c == l && matchPieces ps r
termination_by ps s => (ps.length, s.length)

/-- Whether a name is matched by a wildcard pattern. -/
def accepts (pattern name : String) : Bool := matchPieces (pieces pattern.toList) name.toList

end FlagLine.Glob
