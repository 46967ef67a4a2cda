/-! A ring of keyed values with a cursor. The slots are linked in the order in which their keys
were added, through a head that holds no value; the cursor rests on a slot or on the head. -/
namespace TenantQueue.Queue
variable {κ ν σ : Type}

inductive Position where
  | head
  | slot (i : Nat)
  deriving DecidableEq, Repr

structure Slot (ν : Type) where
  value : ν
  /-- The position after this slot. -/
  next : Position
  deriving DecidableEq, Repr

structure Ring (κ ν : Type) where
  slots : List (Slot ν) := []
  /-- The slot of each key. -/
  index : List (κ × Nat) := []
  /-- The position after the head. -/
  first : Position := .head
  /-- The position before the head. -/
  last : Position := .head
  cursor : Position := .head
  deriving DecidableEq, Repr

/-- Looks at a value and at a state of its own. Tells whether to go on, and what the value and the
state are then. -/
abbrev Visitor (σ ν : Type) := σ → ν → Bool × ν × σ

namespace Ring

def valueAt? (r : Ring κ ν) : Position → Option ν
  | .head => none
  | .slot i => r.slots[i]?.map Slot.value

def next (r : Ring κ ν) : Position → Position
  | .head => r.first
  | .slot i => (r.slots[i]?.map Slot.next).getD .head

def setValue (r : Ring κ ν) (i : Nat) (v : ν) : Ring κ ν :=
  { r with slots := r.slots.modify i fun s => { s with value := v } }

def size (r : Ring κ ν) : Nat := r.index.length

def isEmpty (r : Ring κ ν) : Bool := r.index.isEmpty

def atHead (r : Ring κ ν) : Bool := r.cursor = .head

section Keyed
variable [BEq κ]

def append (r : Ring κ ν) (key : κ) (v : ν) : Ring κ ν :=
  let i := r.slots.length
  let slots := r.slots ++ [⟨v, .head⟩]
  let index := r.index ++ [(key, i)]
  match r.last with
  | .head => { r with slots, index, first := .slot i, last := .slot i }
  | .slot p =>
    { r with slots := slots.modify p fun s => { s with next := .slot i }, index, last := .slot i }

def add (r : Ring κ ν) (key : κ) (v : ν) : Bool × Ring κ ν :=
  if (r.index.lookup key).isSome then (false, r) else (true, r.append key v)

def get? (r : Ring κ ν) (key : κ) : Option ν :=
  (r.index.lookup key).bind fun i => r.valueAt? (.slot i)

def set (r : Ring κ ν) (key : κ) (v : ν) : Ring κ ν :=
  match r.index.lookup key with
  | some i => r.setValue i v
  | none => r

/-- The slot of a key and whether it was there before; a missing key gets a slot for the value that
`make` returns, which runs for no other. -/
def getOrInsert (r : Ring κ ν) (key : κ) (make : σ → ν × σ) (s : σ) :
    (Nat × Bool) × Ring κ ν × σ :=
  match r.index.lookup key with
  | some i => ((i, true), r, s)
  | none =>
    let i := r.slots.length
    let (v, s) := make s
    ((i, false), (r.add key v).2, s)

end Keyed

def advance (r : Ring κ ν) : Option ν × Ring κ ν :=
  let start := if r.next r.cursor = .head then .head else r.cursor
  let cursor := r.next start
  (r.valueAt? cursor, { r with cursor })

def rangeFrom (r : Ring κ ν) (visit : σ → ν → Bool × σ) : Nat → Position → σ → σ
  | 0, _, s => s
  | fuel + 1, pos, s =>
    match r.valueAt? pos with
    | none => s
    | some v =>
      let (more, s) := visit s v
      if more then rangeFrom r visit fuel (r.next pos) s else s

def range (r : Ring κ ν) (visit : σ → ν → Bool × σ) (s : σ) : σ :=
  rangeFrom r visit r.slots.length r.first s

/-- Follows the links from a position until they come round to `start`, whose own slot comes last.
Nothing if they do not come round in `fuel` steps, or leave the slots. -/
def rangeNextFrom (visit : Visitor σ ν) (start : Position) :
    Nat → Position → Ring κ ν → σ → Option (Ring κ ν × σ)
  | 0, _, _, _ => none
  | fuel + 1, pos, r, s =>
    if pos = start then
      match pos with
      | .head => some (r, s)
      | .slot i => (r.valueAt? pos).map fun v => let (_, v, s) := visit s v; (r.setValue i v, s)
    else
      match pos with
      | .head => rangeNextFrom visit start fuel (r.next pos) r s
      | .slot i =>
        (r.valueAt? pos).bind fun v =>
          let (more, v, s) := visit s v
          let r := r.setValue i v
          if more then rangeNextFrom visit start fuel (r.next pos) r s
          else some ({ r with cursor := pos }, s)

/-- Visits every value once, from the slot after the cursor round to the slot under it. The cursor
comes to rest where the visitor has enough, and stays where it was if it never has. -/
def rangeNext (r : Ring κ ν) (visit : Visitor σ ν) (s : σ) : Ring κ ν × σ :=
  (rangeNextFrom visit r.cursor (r.slots.length + 1) (r.next r.cursor) r s).getD (r, s)

end Ring

end TenantQueue.Queue
