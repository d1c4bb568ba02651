/-!
# Sets of code points

A Unicode property is kept as the list of its maximal ranges, each given by its first and last code
point. Membership is the only question that is asked of such a set.
-/

namespace CommandScript.Text

/-- A set of code points, as ranges that name their first and their last member. -/
abbrev CodePoints : Type := List (Nat × Nat)

/-- The character lies in one of the ranges. -/
def CodePoints.contains (ranges : CodePoints) (c : Char) : Bool :=
  ranges.any fun range => range.1 ≤ c.toNat && c.toNat ≤ range.2

/-- The search through the ranges finds a character just when one of them holds it. -/
theorem CodePoints.contains_iff (ranges : CodePoints) (c : Char) :
    ranges.contains c = true ↔ ∃ range ∈ ranges, range.1 ≤ c.toNat ∧ c.toNat ≤ range.2 := by
  simp [CodePoints.contains]

end CommandScript.Text
