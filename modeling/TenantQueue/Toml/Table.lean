/-! TOML values, and tables as they grow line by line. -/
namespace TenantQueue.Toml

/-- How a table came to be: by a header of its own, as a step on the way in another header, or as
a step on the way in a dotted key. -/
inductive Origin where
  | header | implied | dotted
  deriving DecidableEq, Repr

inductive Node where
  | text (s : String)
  | integer (n : Int)
  | float
  | boolean (b : Bool)
  | moment
  | array (items : List Node)
  /-- A table written as a value; nothing can be added to it later. -/
  | inline (entries : List (String × Node))
  | table (origin : Origin) (entries : List (String × Node))
  /-- Tables under a repeated header. -/
  | tables (elements : List (List (String × Node)))

abbrev Entries := List (String × Node)

def Entries.alter (key : String) (f : Option Node → Option Node) : Entries → Option Entries
  | [] => (f none).map fun node => [(key, node)]
  | entry :: rest =>
    if entry.1 = key then (f (some entry.2)).map fun node => (key, node) :: rest
    else (Entries.alter key f rest).map (entry :: ·)

/-- Changes the table at the end of a path, and makes the tables on the way that are missing. A
repeated header stands for its last table. A dotted key does not enter a table that has a header of
its own, and nothing enters a value. -/
def Entries.within (made : Origin) (change : Origin → Entries → Option Entries) :
    List String → Origin → Entries → Option Entries
  | [], origin, entries => change origin entries
  | key :: path, _, entries =>
    Entries.alter key (fun
      | none => (within made change path made []).map (.table made)
      | some (.table origin inner) =>
        if made = .dotted ∧ origin = .header then none
        else (within made change path origin inner).map (.table origin)
      | some (.tables elements) => do
        let last ← elements.getLast?
        let last ← within made change path .header last
        some (.tables (elements.dropLast ++ [last]))
      | some _ => none) entries

/-- Puts a value under a key that is dotted or not. The last table on the way of a dotted key must
itself come from dotted keys. -/
def Entries.put (key : List String) (node : Node) (entries : Entries) : Option Entries := do
  let last ← key.getLast?
  let path := key.dropLast
  Entries.within .dotted (fun origin inner =>
    if (origin == .dotted) == path.isEmpty then none
    else Entries.alter last (fun old => if old.isSome then none else some node) inner)
    path .header entries

def Entries.openTable (header : List String) (entries : Entries) : Option Entries := do
  let last ← header.getLast?
  Entries.within .implied (fun _ inner => Entries.alter last (fun
    | none => some (.table .header [])
    | some (.table .implied old) => some (.table .header old)
    | some _ => none) inner) header.dropLast .header entries

def Entries.openElement (header : List String) (entries : Entries) : Option Entries := do
  let last ← header.getLast?
  Entries.within .implied (fun _ inner => Entries.alter last (fun
    | none => some (.tables [[]])
    | some (.tables elements) => some (.tables (elements ++ [[]]))
    | some _ => none) inner) header.dropLast .header entries

end TenantQueue.Toml
