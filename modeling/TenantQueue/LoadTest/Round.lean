import TenantQueue.LoadTest.Profile
import TenantQueue.Queue.Monitor
import TenantQueue.Telemetry.Reconcile

/-! One round of a load test. Workers drain a queue while the keys of a profile are added to it. An
item is added again until it was processed often enough, and the worker that sees every item
finished shuts the queue down. A turn is one step of one thread, or the passing of time; every
interleaving of the threads is a list of turns. A turn that cannot be taken changes nothing. -/
namespace TenantQueue.LoadTest
open Queue Telemetry

inductive Worker where
  | asking
  /-- Waits in the queue until it is woken. -/
  | parked
  /-- Holds an item until the work on it is over, and then gives it back. -/
  | working (key : String) (deadline : Nat)
  | counting (key : String)
  /-- Adds an item again. -/
  | renewing (key : String)
  /-- Shuts the queue down, as every item is finished. -/
  | closing (key : String)
  | ended
  deriving DecidableEq, Repr

structure Round where
  profile : Profile
  cycles : Nat
  /-- Nanoseconds since the round began. -/
  now : Nat := 0
  monitor : Monitor String
  /-- Keys of the profile that have not been added yet. -/
  unadded : List String
  workers : List Worker
  /-- How often each item was processed. -/
  counts : Keyed Nat
  /-- The recorded outcomes, oldest first. -/
  trail : List Event := []
  deriving Repr

inductive Turn where
  | worker (i : Nat)
  /-- The next key of the profile is added. -/
  | adder
  /-- A signal that is owed is sent. -/
  | signal
  | tick (nanoseconds : Nat)
  deriving DecidableEq, Repr

def nanoseconds (milliseconds : Nat) : Nat := 1000000 * milliseconds

namespace Round

/-- There is at least one worker. -/
def start (queue : WorkQueue String) (profile : Profile) (cycles workers : Nat) : Round where
  profile
  cycles
  monitor := { queue }
  unadded := profile.keys
  workers := List.replicate (max workers 1) .asking
  counts := ⟨profile.keys.map fun key => (key, 0)⟩

def become (r : Round) (i : Nat) (w : Worker) : Round := { r with workers := r.workers.set i w }

def record (r : Round) (key : String) (requeued : Bool) : Round :=
  { r with trail := r.trail ++ [(Reconcile.record { queue := "loadtest", key } requeued).2] }

def shutDown (r : Round) : Round := { r with monitor := r.monitor.shutDown.1 }

def answered (r : Round) (i : Nat) : Taken String × Monitor String × Effects → Round
  | (.item key, monitor, _) =>
    { r with monitor }.become i (.working key (r.now + nanoseconds (r.profile.duration key)))
  | (.blocked, monitor, _) => { r with monitor }.become i .parked
  | (.closed, monitor, _) => { r with monitor }.become i .ended

/-- Every item, those that are not in the profile included, was processed often enough. -/
def finished (r : Round) : Bool := r.counts.entries.all fun entry => r.cycles ≤ entry.2

def count (r : Round) (key : String) : Nat := (r.counts.get? key).getD 0

def counted (r : Round) (i : Nat) (key : String) : Round :=
  let r := { r with counts := r.counts.alter key fun n => n.getD 0 + 1 }
  if r.finished then r.become i (.closing key)
  else if r.count key < r.cycles then r.become i (.renewing key)
  else (r.record key false).become i .asking

def workerStep (r : Round) (i : Nat) : Round :=
  match r.workers[i]? with
  | some .asking => r.answered i r.monitor.ask
  | some .parked => if r.monitor.notified = 0 then r else r.answered i r.monitor.askAgain
  | some (.working key deadline) =>
    if r.now < deadline then r
    else { r with monitor := (r.monitor.done key).1 }.become i (.counting key)
  | some (.counting key) => r.counted i key
  | some (.renewing key) =>
    ({ r with monitor := (r.monitor.add key).1 }.record key true).become i .asking
  | some (.closing key) => (r.record key false).shutDown.become i .ended
  | some .ended => r
  | none => r

def step : Turn → Round → Round
  | .worker i, r => r.workerStep i
  | .adder, r =>
    match r.unadded with
    | [] => r
    | key :: unadded => { r with unadded, monitor := (r.monitor.add key).1 }
  | .signal, r => { r with monitor := r.monitor.deliver }
  | .tick n, r => { r with now := r.now + n }

def run (turns : List Turn) (r : Round) : Round := turns.foldl (fun r turn => r.step turn) r

theorem run_append (turns turns' : List Turn) (r : Round) :
    r.run (turns ++ turns') = (r.run turns).run turns' := List.foldl_append

def isOver (r : Round) : Bool := r.unadded.isEmpty && r.workers.all (· == .ended)

end Round

end TenantQueue.LoadTest
