import TenantQueue.Queue.Dedup
import TenantQueue.Queue.Effects

/-! One queue for the items of all tenants, served strictly in order. Its contract is that of the
fair queue; each function is one critical section, but consumers are woken after it. -/
namespace TenantQueue.Queue
open Telemetry
variable {α : Type}

structure FifoQueue (α : Type) where
  name : String := "fifo"
  items : DedupQueue α := {}
  shuttingDown : Bool := false
  deriving Repr

namespace FifoQueue

def size (q : FifoQueue α) : Nat := q.items.size

def shutDown (q : FifoQueue α) : FifoQueue α × Effects :=
  ({ q with shuttingDown := true },
    { events := [⟨.info, "queue shutting down", [("queue", .text q.name)], none⟩], signal := .all })

variable [DecidableEq α]

def get (q : FifoQueue α) : Taken α × FifoQueue α × Effects :=
  if q.shuttingDown then (.closed, q, {})
  else
    match q.items.get? with
    | some (x, items) => (.item x, { q with items }, { counts := [.gets] })
    | none => (.blocked, q, {})

def add (q : FifoQueue α) (x : α) : FifoQueue α × Effects :=
  ({ q with items := q.items.add x }, { counts := [.adds], signal := .oneUnlocked })

def done (q : FifoQueue α) (x : α) : FifoQueue α × Effects :=
  let (requeued, items) := q.items.done x
  ({ q with items }, if requeued then { counts := [.requeues], signal := .oneUnlocked } else {})

end FifoQueue

end TenantQueue.Queue
