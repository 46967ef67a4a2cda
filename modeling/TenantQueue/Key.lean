import TenantQueue.Error

/-! Keys of work items. A key is a name, or a namespace and a name with a slash between; the
namespace is the tenant that the item is scheduled under. A name alone belongs to the tenant whose
name is empty. -/
namespace TenantQueue
open Text

class WorkItem (α : Type) where
  tenant : α → Except Error String
  debug : α → String

def Error.unexpectedKey (key : String) : Error := .invalidKey key "unexpected key format"

def splitKey (key : String) : Except Error (String × String) :=
  match key.toList.dropWhile (· ≠ '/') with
  | [] => .ok ("", key)
  | _ :: name =>
    if '/' ∈ name then .error (.unexpectedKey key)
    else .ok (String.ofList (key.toList.takeWhile (· ≠ '/')), String.ofList name)

def tenantOf (key : String) : Except Error String := (splitKey key).map Prod.fst

instance : WorkItem String := ⟨tenantOf, quoted⟩

/-- A namespace and a name. Nothing keeps a slash out of either; such a key has no tenant, as its
text has none. -/
structure ObjectKey where
  /-- The namespace, empty for a key that has none. -/
  scope : String
  name : String
  deriving DecidableEq, Repr

namespace ObjectKey

/-- The slash is written only after a namespace that is not empty. -/
def text (key : ObjectKey) : String :=
  if key.scope = "" then key.name else key.scope ++ "/" ++ key.name

def parse (text : String) : Except Error ObjectKey :=
  (splitKey text).map fun parts => ⟨parts.1, parts.2⟩

def tenant (key : ObjectKey) : Except Error String :=
  if '/' ∈ key.scope.toList ∨ '/' ∈ key.name.toList then .error (.unexpectedKey key.text)
  else .ok key.scope

def debug (key : ObjectKey) : String :=
  "ObjectKey \x7b namespace: " ++ quoted key.scope ++ ", name: " ++ quoted key.name ++ " \x7d"

instance : WorkItem ObjectKey := ⟨tenant, debug⟩

def ble (a b : ObjectKey) : Bool :=
  a.scope < b.scope || (a.scope == b.scope && a.name ≤ b.name)

end ObjectKey

end TenantQueue
