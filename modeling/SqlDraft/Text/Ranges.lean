/-
  SqlDraft.Text.Ranges — character classes given as tables of code point ranges,
  both ends included.
-/

namespace SqlDraft.Text

/-- Whether a range of `table` holds `c`. -/
def inRanges (table : List (Nat × Nat)) (c : Char) : Bool :=
  table.any fun (low, high) => decide (low ≤ c.toNat) && decide (c.toNat ≤ high)

theorem inRanges_eq_true_iff {table : List (Nat × Nat)} {c : Char} :
    inRanges table c = true ↔ ∃ r ∈ table, r.1 ≤ c.toNat ∧ c.toNat ≤ r.2 := by
  simp [inRanges]

end SqlDraft.Text
