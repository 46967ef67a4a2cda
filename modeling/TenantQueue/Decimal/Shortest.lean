import TenantQueue.Decimal.Binary
import TenantQueue.Decimal.Digits

/-! The shortest decimal number that reads back as a given floating-point number. A decimal number
reads back if it lies between the middles to the two neighbours; a middle itself does if the
number's whole part m is even. -/
namespace TenantQueue.Decimal

structure Scaled where
  d : Nat
  k : Int
  deriving DecidableEq, Repr

/-- The value of a positive number, and the numbers that read back as it, as multiples of
2 ^ (e - 2). Below a power of two the next number is only half as far away. -/
structure Interval where
  low : Nat
  value : Nat
  high : Nat
  exponent : Int
  closed : Bool
  deriving DecidableEq, Repr

def Interval.around (m : Nat) (e : Int) : Interval where
  low := if m = hiddenBit ∧ leastExponent < e then 4 * m - 1 else 4 * m - 2
  value := 4 * m
  high := 4 * m + 2
  exponent := e - 2
  closed := m % 2 = 0

def scale (n : Nat) (exponent k : Int) : Nat × Nat :=
  (n * Nat.pow 2 exponent.toNat * Nat.pow 10 (-k).toNat,
    Nat.pow 2 (-exponent).toNat * Nat.pow 10 k.toNat)

def magnitude (num den : Nat) : Int :=
  if den ≤ num then (digits (num / den)).length - 1
  else
    let j := (digits (den / num)).length
    if den ≤ num * Nat.pow 10 (j - 1) then -((j : Int) - 1) else -(j : Int)

def Interval.holds (i : Interval) (d : Nat) (k : Int) : Bool :=
  let (low, den) := scale i.low i.exponent k
  let (high, _) := scale i.high i.exponent k
  if i.closed then low ≤ d * den && d * den ≤ high else low < d * den && d * den < high

/-- The nearest multiple of 10 ^ k that reads back, if one does; of two that are equally near, the
even one. -/
def Interval.nearest? (i : Interval) (k : Int) : Option Nat :=
  let (num, den) := scale i.value i.exponent k
  let d := num / den
  let r := num % den
  let lowerFirst := 2 * r < den ∨ (2 * r = den ∧ d % 2 = 0)
  let candidates := if lowerFirst then [d, d + 1] else [d + 1, d]
  candidates.find? fun d => i.holds d k

/-- Tries one digit, then two, and so on; seventeen are always enough. -/
def Interval.search (i : Interval) (top : Int) : Nat → Option Scaled
  | 0 => none
  | left + 1 =>
    let k := top - (16 - left : Int)
    match i.nearest? k with
    | some d => some ⟨d, k⟩
    | none => Interval.search i top left

def Scaled.trimmed : Nat → Scaled → Scaled
  | 0, s => s
  | fuel + 1, s => if s.d % 10 = 0 ∧ s.d ≠ 0 then trimmed fuel ⟨s.d / 10, s.k + 1⟩ else s

def shortest (m : Nat) (e : Int) : Scaled :=
  let (num, den) := quotient m e
  let i := Interval.around m e
  ((i.search (magnitude num den) 17).getD ⟨0, 0⟩).trimmed 20

end TenantQueue.Decimal
