/-!
# TreeSmith.Text.Ranges

**Membership in a table of code point ranges.** A character class beyond ASCII is data: a list
of closed ranges. The tables of `Text.Alphabetic`, `Text.Numeric` and `Text.Quoted` are read
through this one test.
-/

namespace TreeSmith.Text

/-- Does the code point of `c` lie in one of the closed ranges of `table`? -/
def inRanges (table : List (Nat × Nat)) (c : Char) : Bool :=
  table.any fun range => range.1 ≤ c.toNat && c.toNat ≤ range.2

theorem inRanges_iff {table : List (Nat × Nat)} {c : Char} :
    inRanges table c = true ↔ ∃ range ∈ table, range.1 ≤ c.toNat ∧ c.toNat ≤ range.2 := by
  simp [inRanges]

end TreeSmith.Text
