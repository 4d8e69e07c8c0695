/-!
# Sets of characters as ranges of code points

A class of characters is given by the closed ranges of its code points. This module holds the
membership test; the classes themselves are tables of the Unicode character database.
-/

namespace BrokerAdmin.Text

/-- Whether a code point lies in one of the closed ranges. -/
def inRanges (ranges : List (Nat × Nat)) (code : Nat) : Bool :=
  ranges.any fun range => decide (range.1 ≤ code) && decide (code ≤ range.2)

/-- A code point is covered exactly when some range holds it. -/
theorem inRanges_iff {ranges : List (Nat × Nat)} {code : Nat} :
    inRanges ranges code = true ↔ ∃ range ∈ ranges, range.1 ≤ code ∧ code ≤ range.2 := by
  simp [inRanges]

end BrokerAdmin.Text
