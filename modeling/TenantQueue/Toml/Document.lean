import TenantQueue.Toml.Number
import TenantQueue.Toml.Table

/-! TOML documents: values, key-value lines and table headers. -/
namespace TenantQueue.Toml

def boolean : List Char → Option (Bool × List Char)
  | 't' :: 'r' :: 'u' :: 'e' :: rest => some (true, rest)
  | 'f' :: 'a' :: 'l' :: 's' :: 'e' :: rest => some (false, rest)
  | _ => none

def scalar (s : List Char) : Option (Node × List Char) :=
  match s with
  | [] => none
  | c :: _ =>
    if c = '"' ∨ c = '\'' then (string s).map fun (t, rest) => (.text t, rest)
    else if c = 't' ∨ c = 'f' then (boolean s).map fun (b, rest) => (.boolean b, rest)
    else (((moment s).map fun rest => (.moment, rest)).or
      ((float s).map fun rest => (.float, rest))).or
      ((integer s).map fun (n, rest) => (.integer n, rest))

mutual

def value : Nat → Nat → Reader Node
  | fuel + 1, depth, '[' :: rest =>
    if depth = 0 then none else (items fuel (depth - 1) [] rest).map fun (r, s) => (.array r, s)
  | fuel + 1, depth, '\x7b' :: rest =>
    if depth = 0 then none
    else match skipBlanks rest with
      | '\x7d' :: rest => some (.inline [], rest)
      | _ => (pairs fuel (depth - 1) [] rest).map fun (r, s) => (.inline r, s)
  | _ + 1, _, s => scalar s
  | 0, _, _ => none

def items : Nat → Nat → List Node → Reader (List Node)
  | 0, _, _, _ => none
  | fuel + 1, depth, seen, s =>
    match skipAllLines s with
    | ']' :: rest => some (seen.reverse, rest)
    | s => do
      let (item, rest) ← value fuel depth s
      match skipAllLines rest with
      | ',' :: rest => items fuel depth (item :: seen) rest
      | ']' :: rest => some ((item :: seen).reverse, rest)
      | _ => none

def pairs : Nat → Nat → Entries → Reader Entries
  | 0, _, _, _ => none
  | fuel + 1, depth, seen, s => do
    let (name, rest) ← key s
    match rest with
    | '=' :: rest => do
      let (node, rest) ← value fuel depth (skipBlanks rest)
      let seen ← seen.put name node
      match skipBlanks rest with
      | ',' :: rest => pairs fuel depth seen rest
      | '\x7d' :: rest => some (seen, rest)
      | _ => none
    | _ => none

end

structure Draft where
  entries : Entries := []
  header : List String := []

def Draft.put (d : Draft) (name : List String) (node : Node) : Option Draft :=
  (Entries.within .implied (fun _ inner => inner.put name node) d.header .header d.entries).map
    fun entries => { d with entries }

def header (d : Draft) : Reader Draft
  | '[' :: rest => do
    let (name, rest) ← key rest
    match rest with
    | ']' :: ']' :: rest => some ({ entries := ← d.entries.openElement name, header := name }, rest)
    | _ => none
  | rest => do
    let (name, rest) ← key rest
    match rest with
    | ']' :: rest => some ({ entries := ← d.entries.openTable name, header := name }, rest)
    | _ => none

def keyValue (d : Draft) (s : List Char) : Option (Draft × List Char) := do
  let (name, rest) ← key s
  match rest with
  | '=' :: rest => do
    let (node, rest) ← value (rest.length + 1) depthLimit (skipBlanks rest)
    some (← d.put name node, rest)
  | _ => none

def lines : Nat → Draft → List Char → Option Draft
  | 0, _, _ => none
  | fuel + 1, d, s =>
    match skipBlanks s with
    | [] => some d
    | '[' :: rest => do
      let (d, rest) ← header d rest
      lines fuel d (← restOfLine rest)
    | s =>
      match restOfLine s with
      | some rest => lines fuel d rest
      | none => do
        let (d, rest) ← keyValue d s
        lines fuel d (← restOfLine rest)

def document (text : String) : Option Entries :=
  let s := match text.toList with
    | '\ufeff' :: rest => rest
    | s => s
  (lines (s.length + 1) {} s).map Draft.entries

end TenantQueue.Toml
