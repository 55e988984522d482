/-!
# Sets of code points

A set of characters is a list of ranges of code points, both ends included.

`CodePoints.has_iff`: a character belongs to the set if some range contains it.
-/

namespace PklAnalysis.Text

structure CodePoints where
  ranges : List (Nat × Nat)
  deriving Repr, Inhabited

namespace CodePoints

def has (s : CodePoints) (c : Char) : Bool :=
  s.ranges.any (fun r => r.1 ≤ c.toNat && c.toNat ≤ r.2)

theorem has_iff {s : CodePoints} {c : Char} :
    s.has c = true ↔ ∃ r ∈ s.ranges, r.1 ≤ c.toNat ∧ c.toNat ≤ r.2 := by
  simp [has]

end CodePoints

end PklAnalysis.Text
