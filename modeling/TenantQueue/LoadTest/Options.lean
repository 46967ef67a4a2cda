import TenantQueue.Config
import TenantQueue.Json.Reader
import TenantQueue.Json.Writer

/-! How much a load test does, and its JSON form: an object with these three members among others,
or an array of the three numbers. -/
namespace TenantQueue.LoadTest
open Json Json.Reader

structure Options where
  /-- Rounds per queue flavour. -/
  rounds : Nat := 10
  /-- How often each item is processed in a round. -/
  cycles : Nat := 10
  workers : Nat := defaultWorkers
  deriving DecidableEq, Repr

namespace Options

def json (o : Options) : Value :=
  .object [("rounds", .integer o.rounds), ("cycles", .integer o.cycles),
    ("workers", .integer o.workers)]

structure Members where
  rounds : Option Nat := none
  cycles : Option Nat := none
  workers : Option Nat := none

def Members.place (name : String) :
    Option ((Members → Option Nat) × (Members → Nat → Members)) :=
  if name = "rounds" then some (Members.rounds, fun m n => { m with rounds := some n })
  else if name = "cycles" then some (Members.cycles, fun m n => { m with cycles := some n })
  else if name = "workers" then some (Members.workers, fun m n => { m with workers := some n })
  else none

def Members.complete (m : Members) : Except Fault Options :=
  match m with
  | ⟨some rounds, some cycles, some workers⟩ => .ok { rounds, cycles, workers }
  | _ => .error .unfit

/-- One member. A member of another name may have any value; one that was there before is refused
before its value is looked at. -/
def member (m : Members) (s : List Char) : Except Fault (Members × List Char) := do
  let (name, s) ← memberName false s
  match Members.place name with
  | none => (skip (s.length + 1) (← colon s)).map fun s => (m, s)
  | some (get, set) =>
    if (get m).isSome then .error .unfit
    else do
      let (n, s) ← natural (← colon s)
      .ok (set m n, s)

def members : Nat → Members → List Char → Except Fault (Members × List Char)
  | 0, _, _ => .error .ended
  | fuel + 1, m, s => do
    let (m, s) ← member m s
    match skipSpace s with
    | '\x7d' :: s => .ok (m, s)
    | ',' :: s =>
      match skipSpace s with
      | [] => .error .ended
      | s => members fuel m s
    | [] => .error .ended
    | _ => .error .malformed

def item (first : Bool) (s : List Char) : Except Fault (Nat × List Char) :=
  match skipSpace s with
  | [] => .error .ended
  | ']' :: _ => .error .unfit
  | c :: s =>
    if first then natural (c :: s)
    else if c ≠ ',' then .error .malformed
    else
      match skipSpace s with
      | ']' :: _ => .error .malformed
      | s => natural s

def array (s : List Char) : Except Fault (Options × List Char) := do
  let (rounds, s) ← item true s
  let (cycles, s) ← item false s
  let (workers, s) ← item false s
  match skipSpace s with
  | ']' :: s => .ok ({ rounds, cycles, workers }, s)
  | [] => .error .ended
  | _ => .error .malformed

def object (s : List Char) : Except Fault (Options × List Char) :=
  match skipSpace s with
  | '\x7d' :: _ => .error .unfit
  | s => do
    let (m, s) ← members (s.length + 1) {} s
    .ok (← m.complete, s)

def ofJson (text : String) : Except Fault Options := do
  let (options, rest) ← match skipSpace text.toList with
    | '[' :: s => array s
    | '\x7b' :: s => object s
    | s => (scalar false s).bind fun _ => .error .unfit
  if skipSpace rest = [] then .ok options else .error .malformed

end Options

end TenantQueue.LoadTest
