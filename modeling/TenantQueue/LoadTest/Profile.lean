import TenantQueue.Key
import TenantQueue.Keyed
import TenantQueue.Text.Raw
import TenantQueue.Toml.Document

/-! Load profiles: how many milliseconds the work on each item takes. -/
namespace TenantQueue.LoadTest
open Text

structure Profile where
  items : Keyed Nat
  deriving DecidableEq, Repr

inductive FileContent where
  | missing
  | directory
  /-- It cannot be read for some other reason. -/
  | unreadable (reason : String)
  | bytes (content : List UInt8)
  deriving DecidableEq, Repr

def FileContent.text : FileContent → Except Error String
  | .missing => .error (.io "No such file or directory (os error 2)")
  | .directory => .error (.io "Is a directory (os error 21)")
  | .unreadable reason => .error (.io reason)
  | .bytes content =>
    match RawText.text? ⟨content⟩ with
    | some text => .ok text
    | none => .error (.io "stream did not contain valid UTF-8")

/-- A text that is no profile; the path is shown if it came from a file. What the parser has to say
of the fault would follow after a colon, and is left out. -/
def badProfile (path : Option String) : Error :=
  .profile (String.join ("bad profile" :: (path.map (" " ++ ·)).toList))

namespace Profile

def standard : Profile where
  items := Keyed.ofList [("ns1/item1", 200), ("ns1/item2", 100), ("ns1/item3", 50),
    ("ns2/item1", 5), ("ns3/item1", 100), ("ns3/item2", 50), ("ns4/item1", 5), ("ns5/item1", 5)]

def keyError? (key : String) : Option Error :=
  match splitKey key with
  | .ok _ => none
  | .error e => some e

/-- A profile has at least one item, and its keys have tenants. The error names the least key that
has none. -/
def ofKeyed (items : Keyed Nat) : Except Error Profile :=
  if items.isEmpty then .error (.profile "profile has no items")
  else match items.keys.findSome? keyError? with
    | some e => .error e
    | none => .ok ⟨items⟩

def ofList (items : List (String × Nat)) : Except Error Profile := ofKeyed (Keyed.ofList items)

def milliseconds (entries : Toml.Entries) : Option (List (String × Nat)) :=
  entries.mapM fun
    | (key, .integer n) => if 0 ≤ n then some (key, n.toNat) else none
    | _ => none

def itemsTable (document : Toml.Entries) : Option (List (String × Nat)) :=
  match document.lookup "items" with
  | some (.table _ entries) => milliseconds entries
  | some (.inline entries) => milliseconds entries
  | _ => none

def ofText (parse : String → Option (List (String × Nat))) (text : String) (path : Option String) :
    Except Error Profile :=
  match parse text with
  | none => .error (badProfile path)
  | some items => ofList items

def ofContent (parse : String → Option (List (String × Nat))) (content : FileContent)
    (path : Option String) : Except Error Profile := do
  ofText parse (← content.text) path

def tomlItems (text : String) : Option (List (String × Nat)) :=
  (Toml.document text).bind itemsTable

def ofToml (text : String) (path : Option String) : Except Error Profile :=
  ofText tomlItems text path

def load (content : FileContent) (path : Option String) : Except Error Profile :=
  ofContent tomlItems content path

def keys (p : Profile) : List String := p.items.keys

def size (p : Profile) : Nat := p.items.size

def isEmpty (p : Profile) : Bool := p.items.isEmpty

/-- Items that are not in the profile take no time. -/
def duration (p : Profile) (key : String) : Nat := (p.items.get? key).getD 0

end Profile

end TenantQueue.LoadTest
