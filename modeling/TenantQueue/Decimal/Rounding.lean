import TenantQueue.Decimal.Digits

/-! Rounding to the nearest, where a half goes to the even neighbour. -/
namespace TenantQueue.Decimal

def roundDiv (num den : Nat) : Nat :=
  let q := num / den
  let r := num % den
  if 2 * r < den then q
  else if den < 2 * r then q + 1
  else if q % 2 = 0 then q else q + 1

def nearestBinary (n : Nat) : Nat :=
  let unit := Nat.pow 2 (n.log2 + 1 - 53)
  roundDiv n unit * unit

theorem roundDiv_one (n : Nat) : roundDiv n 1 = n := by
  simp [roundDiv, Nat.mod_one]

/-- Numbers of at most 53 bits are exact. -/
theorem nearestBinary_eq_self {n : Nat} (h : n.log2 < 53) : nearestBinary n = n := by
  have hu : n.log2 + 1 - 53 = 0 := by omega
  simp [nearestBinary, hu, roundDiv_one]

/-- The middle between the largest floating-point number and the next power of two. From here on
numbers are too large. -/
def overflowBound : Nat := Nat.pow 2 1024 - Nat.pow 2 970

def overflows (ds : List Char) (shift : Int) : Bool :=
  let ds := ds.dropWhile (· = '0')
  let magnitude := ds.length + shift
  if ds = [] ∨ magnitude < 300 then false
  else if 310 < magnitude then true
  else
    overflowBound * Nat.pow 10 (-shift).toNat ≤
      digitsValue 10 digitOf ds * Nat.pow 10 shift.toNat

end TenantQueue.Decimal
