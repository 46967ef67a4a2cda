import TenantQueue.Decimal.Binary
import TenantQueue.Decimal.Rounding

/-! Numbers with a fixed count of decimal places. -/
namespace TenantQueue.Decimal

def pointed (places n : Nat) : List Char :=
  let ds := padded (places + 1) n
  ds.take (ds.length - places) ++ '.' :: ds.drop (ds.length - places)

def signed (negative : Bool) (s : List Char) : List Char := if negative then '-' :: s else s

/-- The exact value, rounded to `places` decimal places, of which there is at least one. A negative
number keeps its sign even if it is rounded to zero. -/
def fixed (places : Nat) (x : Float) : String :=
  match Binary.ofFloat x with
  | .nan => "NaN"
  | .infinite negative => String.ofList (signed negative "inf".toList)
  | .finite negative m e =>
    let (num, den) := quotient m e
    String.ofList (signed negative (pointed places (roundDiv (num * Nat.pow 10 places) den)))

end TenantQueue.Decimal
