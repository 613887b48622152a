/-
Character classes as lists of closed ranges of code points.
-/
namespace WorkflowGraph.Text

/-- whether a code point lies in one of the ranges -/
def inRanges (ranges : List (Nat × Nat)) (n : Nat) : Bool := ranges.any fun r => decide (r.1 ≤ n ∧ n ≤ r.2)

theorem inRanges_iff (ranges : List (Nat × Nat)) (n : Nat) :
    inRanges ranges n = true ↔ ∃ r ∈ ranges, r.1 ≤ n ∧ n ≤ r.2 := by
  simp [inRanges]

end WorkflowGraph.Text
