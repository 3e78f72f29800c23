/-!
# Code point ranges

Properties of characters that a standard fixes by listing code points are kept as lists of closed
ranges. `inRanges` looks a character up.
-/

namespace Schemata.Text

/-- Whether the code point of the character lies in one of the closed ranges. -/
def inRanges (ranges : List (Nat × Nat)) (c : Char) : Bool :=
  ranges.any fun range => range.1 ≤ c.toNat && c.toNat ≤ range.2

theorem inRanges_iff {ranges : List (Nat × Nat)} {c : Char} :
    inRanges ranges c = true ↔ ∃ range ∈ ranges, range.1 ≤ c.toNat ∧ c.toNat ≤ range.2 := by
  simp [inRanges]

end Schemata.Text
