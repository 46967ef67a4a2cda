/-! Decimal digits of whole numbers. -/
namespace TenantQueue.Decimal

def digits (n : Nat) : List Char := Nat.toDigits 10 n

def padded (width n : Nat) : List Char :=
  let ds := digits n
  List.replicate (width - ds.length) '0' ++ ds

def digitsValue (base : Nat) (value : Char → Nat) (ds : List Char) : Nat :=
  ds.foldl (fun n c => base * n + value c) 0

def digitOf (c : Char) : Nat := c.toNat - '0'.toNat

end TenantQueue.Decimal
