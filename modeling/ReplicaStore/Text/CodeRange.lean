/-!
# Ranges of characters

A property of characters is written down as the ranges of code points that have it.
-/

namespace ReplicaStore.Text

/-- The characters whose code points lie between two bounds, both included. -/
structure CodeRange where
  first : Nat
  last : Nat
  deriving DecidableEq, Repr

/-- Membership in a range. -/
def CodeRange.has (range : CodeRange) (character : Char) : Bool :=
  decide (range.first ≤ character.toNat ∧ character.toNat ≤ range.last)

/-- Membership in one of several ranges. -/
def inRanges (ranges : List CodeRange) (character : Char) : Bool :=
  ranges.any (·.has character)

end ReplicaStore.Text
