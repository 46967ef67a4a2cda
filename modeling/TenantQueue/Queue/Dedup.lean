/-! A queue in which an item waits at most once. An item added again while it is checked out is
remembered, and waits again only when the work on it is done. -/
namespace TenantQueue.Queue
variable {α : Type}

/-- Every waiting item is dirty and none is being processed; items are handed out from the front. -/
structure DedupQueue (α : Type) where
  waiting : List α := []
  /-- Items that need work, waiting or not. -/
  dirty : List α := []
  /-- Items handed out and not yet done. -/
  processing : List α := []
  deriving DecidableEq, Repr

namespace DedupQueue
variable [DecidableEq α]

def add (q : DedupQueue α) (x : α) : DedupQueue α :=
  if x ∈ q.dirty then q
  else if x ∈ q.processing then { q with dirty := x :: q.dirty }
  else { q with dirty := x :: q.dirty, waiting := q.waiting ++ [x] }

def get? (q : DedupQueue α) : Option (α × DedupQueue α) :=
  match q.waiting with
  | [] => none
  | x :: rest =>
    some (x, { waiting := rest, dirty := q.dirty.filter (· ≠ x)
               processing := q.processing.insert x })

/-- Ends the work on an item; tells whether it waits again because it was added meanwhile. An item
that is not checked out is ignored. -/
def done (q : DedupQueue α) (x : α) : Bool × DedupQueue α :=
  if x ∈ q.processing then
    let rest := q.processing.filter (· ≠ x)
    if x ∈ q.dirty then (true, { q with processing := rest, waiting := q.waiting ++ [x] })
    else (false, { q with processing := rest })
  else (false, q)

def size (q : DedupQueue α) : Nat := q.waiting.length

def isEmpty (q : DedupQueue α) : Bool := q.waiting.isEmpty

def isDirty (q : DedupQueue α) (x : α) : Bool := x ∈ q.dirty

def isProcessing (q : DedupQueue α) (x : α) : Bool := x ∈ q.processing

end DedupQueue

end TenantQueue.Queue
