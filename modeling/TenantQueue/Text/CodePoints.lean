/-! Sets of code points, given by their ranges in ascending order. -/
namespace TenantQueue.Text

abbrev CodePoints := List (Nat × Nat)

def CodePoints.has (table : CodePoints) (c : Char) : Bool :=
  table.any fun range => range.1 ≤ c.toNat && c.toNat ≤ range.2

theorem CodePoints.has_iff {table : CodePoints} {c : Char} :
    table.has c = true ↔ ∃ range ∈ table, range.1 ≤ c.toNat ∧ c.toNat ≤ range.2 := by
  simp [has]

end TenantQueue.Text
