/-! Floating-point numbers as what they are: a whole number times a power of two. -/
namespace TenantQueue.Decimal

inductive Binary where
  | nan
  | infinite (negative : Bool)
  /-- The value is m · 2 ^ e, or its negative. -/
  | finite (negative : Bool) (m : Nat) (e : Int)
  deriving DecidableEq, Repr

def leastExponent : Int := -1074

def hiddenBit : Nat := Nat.pow 2 52

def Binary.ofFloat (x : Float) : Binary :=
  let bits := x.toBits.toNat
  let negative := bits / Nat.pow 2 63 = 1
  let exponent : Nat := bits / hiddenBit % Nat.pow 2 11
  let fraction : Nat := bits % hiddenBit
  if exponent = Nat.pow 2 11 - 1 then if fraction = 0 then .infinite negative else .nan
  else if exponent = 0 then .finite negative fraction leastExponent
  else .finite negative (hiddenBit + fraction) (leastExponent + exponent - 1)

def quotient (m : Nat) (e : Int) : Nat × Nat := (m * Nat.pow 2 e.toNat, Nat.pow 2 (-e).toNat)

end TenantQueue.Decimal
