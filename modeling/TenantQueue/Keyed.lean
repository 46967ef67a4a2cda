/-! Values under text keys, kept in ascending order of the keys. -/
namespace TenantQueue
variable {ν : Type}

structure Keyed (ν : Type) where
  entries : List (String × ν) := []
  deriving DecidableEq, Repr

namespace Keyed

def alterIn (key : String) (f : Option ν → ν) : List (String × ν) → List (String × ν)
  | [] => [(key, f none)]
  | entry :: rest =>
    if key = entry.1 then (key, f (some entry.2)) :: rest
    else if key < entry.1 then (key, f none) :: entry :: rest
    else entry :: alterIn key f rest

def alter (m : Keyed ν) (key : String) (f : Option ν → ν) : Keyed ν := ⟨alterIn key f m.entries⟩

def insert (m : Keyed ν) (key : String) (v : ν) : Keyed ν := m.alter key fun _ => v

/-- Of two values of one key the last counts. -/
def ofList (entries : List (String × ν)) : Keyed ν :=
  entries.foldl (fun m entry => m.insert entry.1 entry.2) {}

def get? (m : Keyed ν) (key : String) : Option ν := m.entries.lookup key

def keys (m : Keyed ν) : List String := m.entries.map Prod.fst

def size (m : Keyed ν) : Nat := m.entries.length

def isEmpty (m : Keyed ν) : Bool := m.entries.isEmpty

end Keyed

end TenantQueue
