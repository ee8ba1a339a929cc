/-!
# Sets of characters by code point

A class of characters is given by the ranges of code points that belong to it. The classes of
this library (blank characters, printable characters, decimal digits) are such tables.
-/

namespace PrefixLogic.Text

/-- A set of characters: ranges of code points in ascending order, both ends included. -/
abbrev CodeRanges := List (Nat × Nat)

/-- Membership of a character in a set of ranges. -/
def CodeRanges.contains (ranges : CodeRanges) (c : Char) : Bool :=
  ranges.any fun range => range.1 ≤ c.toNat && c.toNat ≤ range.2

theorem CodeRanges.contains_iff (ranges : CodeRanges) (c : Char) :
    ranges.contains c = true ↔ ∃ range ∈ ranges, range.1 ≤ c.toNat ∧ c.toNat ≤ range.2 := by
  simp [CodeRanges.contains]

end PrefixLogic.Text
