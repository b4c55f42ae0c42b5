import FlagLine.Text.Classes
import FlagLine.Text.Case
/-!
# Regular expressions: the tree of a pattern

A pattern is a tree of literals, sets, anchors, groups, repeats and alternatives, each
leaf carrying the modes in force where it was written: case folding, whether a point
matches a line break, whether anchors see lines, whether classes are ASCII only. Capture
groups are numbered by their opening parentheses from one. The width of a tree is the
least and the greatest number of characters it can match, the greatest capped at the
repeat limit; a look behind needs a tree whose two widths agree.
-/

namespace FlagLine.Regex

/-- The modes of a pattern. -/
structure Flags where
  ignoreCase : Bool := false
  multiline : Bool := false
  dotAll : Bool := false
  verbose : Bool := false
  ascii : Bool := false
  unicode : Bool := false
  deriving DecidableEq, Repr, Inhabited

/-- A class of characters that an escape names. -/
inductive Category where
  | digit
  | space
  | word
  deriving DecidableEq, Repr, Inhabited

/-- A member of a bracketed set. -/
inductive SetItem where
  | char (c : Char)
  | range (lo hi : Char)
  | category (cat : Category) (negated : Bool)
  deriving DecidableEq, Repr, Inhabited

/-- A test of a position that matches no character. -/
inductive Anchor where
  | lineStart
  | lineEnd
  | textStart
  | textEnd
  | boundary
  | notBoundary
  deriving DecidableEq, Repr, Inhabited

/-- How a repeat chooses its count: most first, fewest first, or most without giving any
back. -/
inductive RepeatMode where
  | greedy
  | lazy
  | possessive
  deriving DecidableEq, Repr, Inhabited

/-- The tree of a pattern. A character that cannot occur in text is an empty set. -/
inductive Node where
  | empty
  | char (c : Char) (fold : Bool)
  | any (dotAll : Bool)
  | set (negated : Bool) (items : List SetItem) (fold ascii : Bool)
  | category (cat : Category) (negated ascii : Bool)
  | anchor (a : Anchor) (multiline ascii : Bool)
  | seq (items : List Node)
  | alt (branches : List Node)
  | group (index : Option Nat) (body : Node)
  | loop (body : Node) (min : Nat) (max : Option Nat) (mode : RepeatMode)
  | backref (index : Nat) (fold : Bool)
  | look (behind negated : Bool) (width : Nat) (body : Node)
  | atomic (body : Node)
  | cond (index : Nat) (yes no : Node)
  deriving Repr, Inhabited

/-- A parsed pattern: its tree, its number of capture groups and its group names. -/
structure Pattern where
  root : Node
  groups : Nat
  names : List (String × Nat)
  deriving Repr, Inhabited

def repeatLimit : Nat := 4294967295

/-- The least and greatest width of a tree. -/
structure Width where
  lo : Nat
  hi : Nat
  deriving DecidableEq, Repr, Inhabited

def Width.add (a b : Width) : Width := ⟨a.lo + b.lo, a.hi + b.hi⟩

/-- Widths of trees placed side by side as alternatives. -/
def Width.either (a b : Width) : Width := ⟨min a.lo b.lo, max a.hi b.hi⟩

/-- A width with both ends capped at the repeat limit. -/
def Width.capped (w : Width) : Width := ⟨min w.lo (repeatLimit - 1), min w.hi repeatLimit⟩

mutual

/-- The width of a tree, given the widths of the groups it may refer to. -/
def Node.width (groupWidth : Nat → Width) : Node → Width
  | .empty => ⟨0, 0⟩
  | .char .. | .any _ | .set .. | .category .. => ⟨1, 1⟩
  | .anchor .. | .look .. => ⟨0, 0⟩
  | .seq items => (Node.widthSeq groupWidth items).capped
  | .alt branches =>
    match branches with
    | [] => ⟨0, 0⟩
    | b :: bs => (Node.widthAlt groupWidth (b.width groupWidth) bs).capped
  | .group _ body => body.width groupWidth
  | .atomic body => body.width groupWidth
  | .loop body lo hi _ =>
    let w := body.width groupWidth
    (Width.mk (w.lo * lo) (w.hi * hi.getD repeatLimit)).capped
  | .backref i _ => groupWidth i
  | .cond _ yes no => (yes.width groupWidth).either (no.width groupWidth)

def Node.widthSeq (groupWidth : Nat → Width) : List Node → Width
  | [] => ⟨0, 0⟩
  | n :: ns => (n.width groupWidth).add (Node.widthSeq groupWidth ns)

def Node.widthAlt (groupWidth : Nat → Width) (acc : Width) : List Node → Width
  | [] => acc
  | n :: ns => Node.widthAlt groupWidth (acc.either (n.width groupWidth)) ns

end

end FlagLine.Regex
