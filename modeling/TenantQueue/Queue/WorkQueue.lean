import TenantQueue.Queue.Fair
import TenantQueue.Queue.Fifo

/-! What consumers of a queue rely on, whichever its flavour. -/
namespace TenantQueue.Queue
variable {α : Type}

inductive Flavour where
  | fair | fifo
  deriving DecidableEq, Repr

inductive WorkQueue (α : Type) where
  | fair (q : FairQueue α)
  | fifo (q : FifoQueue α)
  deriving Repr

namespace WorkQueue

/-- An empty queue; without a name it is called after its flavour. -/
def empty (flavour : Flavour) (name : Option String := none) : WorkQueue α :=
  match flavour, name with
  | .fair, none => fair {}
  | .fair, some name => fair { name }
  | .fifo, none => fifo {}
  | .fifo, some name => fifo { name }

def flavour : WorkQueue α → Flavour
  | fair _ => .fair
  | fifo _ => .fifo

def name : WorkQueue α → String
  | fair q => q.name
  | fifo q => q.name

def size : WorkQueue α → Nat
  | fair q => q.size
  | fifo q => q.size

def isEmpty (q : WorkQueue α) : Bool := q.size == 0

def shuttingDown : WorkQueue α → Bool
  | fair q => q.shuttingDown
  | fifo q => q.shuttingDown

def shutDown : WorkQueue α → WorkQueue α × Effects
  | fair q => let (q, effects) := q.shutDown; (fair q, effects)
  | fifo q => let (q, effects) := q.shutDown; (fifo q, effects)

variable [DecidableEq α]

def get : WorkQueue α → Taken α × WorkQueue α × Effects
  | fair q => let (taken, q, effects) := q.get; (taken, fair q, effects)
  | fifo q => let (taken, q, effects) := q.get; (taken, fifo q, effects)

variable [WorkItem α]

def add : WorkQueue α → α → WorkQueue α × Effects
  | fair q, x => let (q, effects) := q.add x; (fair q, effects)
  | fifo q, x => let (q, effects) := q.add x; (fifo q, effects)

def done : WorkQueue α → α → WorkQueue α × Effects
  | fair q, x => let (q, effects) := q.done x; (fair q, effects)
  | fifo q, x => let (q, effects) := q.done x; (fifo q, effects)

end WorkQueue

end TenantQueue.Queue
