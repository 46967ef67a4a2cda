import TenantQueue.Key
import TenantQueue.Queue.Dedup
import TenantQueue.Queue.Effects
import TenantQueue.Queue.Ring

/-! A queue that serves its tenants in turn. Every tenant has a queue of its own, which is made when
the tenant's first item is added and never removed. The ring of these queues rests on the tenant
that was served last, and the search for the next item starts after it: however long one tenant's
queue is, every other is served once per revolution. Each function is one critical section. -/
namespace TenantQueue.Queue
open Telemetry
variable {α : Type}

structure FairQueue (α : Type) where
  name : String := "fair"
  tenants : Ring String (DedupQueue α) := {}
  shuttingDown : Bool := false
  deriving Repr

namespace FairQueue

def tenantCount (q : FairQueue α) : Nat := q.tenants.size

def size (q : FairQueue α) : Nat :=
  q.tenants.range (fun total items => (true, total + items.size)) 0

def shutDown (q : FairQueue α) : FairQueue α × Effects :=
  ({ q with shuttingDown := true },
    { events := [⟨.info, "queue shutting down", [("queue", .text q.name)], none⟩], signal := .all })

def dropped [WorkItem α] (q : FairQueue α) (message : String) (x : α) (e : Error) : Effects where
  counts := [.dropped]
  events := [⟨.warn, message,
    [("queue", .text q.name), ("key", .text (WorkItem.debug x)), ("error", .text e.message)], none⟩]

variable [DecidableEq α]

def pick : Visitor (Option α) (DedupQueue α) := fun picked items =>
  match items.get? with
  | some (x, rest) => (false, rest, some x)
  | none => (true, items, picked)

def get (q : FairQueue α) : Taken α × FairQueue α × Effects :=
  if q.shuttingDown then (.closed, q, {})
  else
    match q.tenants.rangeNext pick none with
    | (tenants, some x) => (.item x, { q with tenants }, { counts := [.gets] })
    | (tenants, none) => (.blocked, { q with tenants }, {})

variable [WorkItem α]

/-- Items are accepted after shutdown too, but never handed out. -/
def add (q : FairQueue α) (x : α) : FairQueue α × Effects :=
  match WorkItem.tenant x with
  | .error e => (q, q.dropped "dropping item on add" x e)
  | .ok tenant =>
    let ((i, existed), ring, ()) := q.tenants.getOrInsert tenant (fun s => ({}, s)) ()
    let created : Event :=
      ⟨.debug, "created tenant queue", [("queue", .text q.name), ("tenant", .text tenant)], none⟩
    let items := ((ring.valueAt? (.slot i)).getD {}).add x
    ({ q with tenants := ring.setValue i items },
      { counts := [.adds], events := if existed then [] else [created], signal := .one })

/-- Items that are not checked out, of a known tenant or not, are ignored. -/
def done (q : FairQueue α) (x : α) : FairQueue α × Effects :=
  match WorkItem.tenant x with
  | .error e => (q, q.dropped "dropping item on done" x e)
  | .ok tenant =>
    match q.tenants.get? tenant with
    | none => (q, {})
    | some items =>
      let (requeued, items) := items.done x
      ({ q with tenants := q.tenants.set tenant items },
        if requeued then { counts := [.requeues], signal := .one } else {})

end FairQueue

end TenantQueue.Queue
