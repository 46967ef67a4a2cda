import TenantQueue.Queue.Monitor

/-! Producers that add items to a queue, and consumers that take them. While a consumer holds an
item it adds it again, unless the item was handed out often enough; then it gives the item back. As
in a round of a load test, every interleaving of the threads is a list of turns, and a turn that
cannot be taken changes nothing. -/
namespace TenantQueue.Queue
variable {α : Type}

inductive Consumer (α : Type) where
  | asking
  /-- Waits in the queue until it is woken. -/
  | parked
  /-- Has got an item and may add it again. -/
  | holding (x : α)
  | returning (x : α)
  | ended
  deriving DecidableEq, Repr

def Consumer.held? : Consumer α → Option α
  | .holding x => some x
  | .returning x => some x
  | _ => none

structure Crew (α : Type) where
  /-- An item is added again while it was handed out at most so often. -/
  readds : Nat
  monitor : Monitor α
  /-- What each producer has yet to add. -/
  producers : List (List α)
  consumers : List (Consumer α)
  /-- The items handed out, the last one first. -/
  handedOut : List α := []
  /-- An item was handed out while another consumer held it. -/
  overlap : Bool := false
  deriving Repr

inductive CrewTurn where
  | producer (i : Nat)
  | consumer (i : Nat)
  | signal
  | shutDown
  deriving DecidableEq, Repr

namespace Crew

def start (queue : WorkQueue α) (readds : Nat) (producers : List (List α)) (consumers : Nat) :
    Crew α where
  readds
  monitor := { queue }
  producers
  consumers := List.replicate consumers .asking

def become (c : Crew α) (i : Nat) (consumer : Consumer α) : Crew α :=
  { c with consumers := c.consumers.set i consumer }

def held (c : Crew α) : List α := c.consumers.filterMap Consumer.held?

variable [DecidableEq α]

def answered (c : Crew α) (i : Nat) : Taken α × Monitor α × Effects → Crew α
  | (.item x, monitor, _) =>
    { c with monitor, handedOut := x :: c.handedOut, overlap := c.overlap || x ∈ c.held }.become i
      (.holding x)
  | (.blocked, monitor, _) => { c with monitor }.become i .parked
  | (.closed, monitor, _) => { c with monitor }.become i .ended

variable [WorkItem α]

def consumerStep (c : Crew α) (i : Nat) : Crew α :=
  match c.consumers[i]? with
  | some .asking => c.answered i c.monitor.ask
  | some .parked => if c.monitor.notified = 0 then c else c.answered i c.monitor.askAgain
  | some (.holding x) =>
    let monitor := if c.handedOut.count x ≤ c.readds then (c.monitor.add x).1 else c.monitor
    { c with monitor }.become i (.returning x)
  | some (.returning x) => { c with monitor := (c.monitor.done x).1 }.become i .asking
  | some .ended => c
  | none => c

def producerStep (c : Crew α) (i : Nat) : Crew α :=
  match c.producers[i]? with
  | some (x :: rest) =>
    { c with producers := c.producers.set i rest, monitor := (c.monitor.add x).1 }
  | _ => c

def step : CrewTurn → Crew α → Crew α
  | .producer i, c => c.producerStep i
  | .consumer i, c => c.consumerStep i
  | .signal, c => { c with monitor := c.monitor.deliver }
  | .shutDown, c => { c with monitor := c.monitor.shutDown.1 }

def run (turns : List CrewTurn) (c : Crew α) : Crew α := turns.foldl (fun c turn => c.step turn) c

theorem run_append (turns turns' : List CrewTurn) (c : Crew α) :
    c.run (turns ++ turns') = (c.run turns).run turns' := List.foldl_append

def able (c : Crew α) : Consumer α → Bool
  | .parked => c.monitor.notified ≠ 0
  | .ended => false
  | _ => true

def next? (c : Crew α) : Option CrewTurn :=
  if c.monitor.owed ≠ 0 then some .signal
  else match c.consumers.findIdx? c.able with
    | some i => some (.consumer i)
    | none => (c.producers.findIdx? fun items => !items.isEmpty).map .producer

def workFor : Nat → Crew α → Crew α
  | 0, c => c
  | fuel + 1, c =>
    match c.next? with
    | none => c
    | some turn => workFor fuel (c.step turn)

/-- More turns than there can be: an item is handed out once for each time a producer adds it, and
as often again as it is added by consumers. -/
def turnLimit (c : Crew α) : Nat :=
  let adds := c.producers.flatten.length + c.monitor.queue.size
  16 * (adds * (c.readds + 1) + c.consumers.length + 1)

def work (c : Crew α) : Crew α :=
  let c := workFor c.turnLimit c
  workFor c.turnLimit (c.step .shutDown)

theorem workFor_eq_run (fuel : Nat) (c : Crew α) : ∃ turns, workFor fuel c = c.run turns := by
  induction fuel generalizing c with
  | zero => exact ⟨[], rfl⟩
  | succ fuel ih =>
    unfold workFor
    split
    · exact ⟨[], rfl⟩
    · next turn _ =>
      obtain ⟨turns, h⟩ := ih (c.step turn)
      exact ⟨turn :: turns, h⟩

/-- The schedule is one of the interleavings. -/
theorem work_eq_run (c : Crew α) : ∃ turns, c.work = c.run turns := by
  obtain ⟨before, h⟩ := workFor_eq_run c.turnLimit c
  obtain ⟨after, h'⟩ := workFor_eq_run (c.run before).turnLimit ((c.run before).step .shutDown)
  refine ⟨before ++ .shutDown :: after, ?_⟩
  rw [run_append]
  simp only [work, h]
  exact h'

end Crew

end TenantQueue.Queue
