import TenantQueue.Queue.WorkQueue

/-! A queue shared by consumers that wait when there is nothing to take. Each step is one critical
section, or the sending of a signal after one; any interleaving of threads is a sequence of steps.
Consumers are alike, so it is enough to count them: those that wait, and those that were notified
and have not looked at the queue again. -/
namespace TenantQueue.Queue
variable {α : Type}

structure Monitor (α : Type) where
  queue : WorkQueue α
  /-- Consumers that wait for a signal. -/
  waiting : Nat := 0
  /-- Consumers that got a signal and have not run since. -/
  notified : Nat := 0
  /-- Signals of calls that have released the lock and not sent them yet. -/
  owed : Nat := 0
  deriving Repr

namespace Monitor

def notifyOne (m : Monitor α) : Monitor α :=
  if m.waiting = 0 then m else { m with waiting := m.waiting - 1, notified := m.notified + 1 }

def notifyAll (m : Monitor α) : Monitor α :=
  { m with waiting := 0, notified := m.notified + m.waiting }

def signal (m : Monitor α) : Signal → Monitor α
  | .none => m
  | .one => m.notifyOne
  | .oneUnlocked => { m with owed := m.owed + 1 }
  | .all => m.notifyAll

def deliver (m : Monitor α) : Monitor α :=
  if m.owed = 0 then m else { m with owed := m.owed - 1 }.notifyOne

def shutDown (m : Monitor α) : Monitor α × Effects :=
  let (queue, effects) := m.queue.shutDown
  ({ m with queue }.signal effects.signal, effects)

variable [DecidableEq α]

def ask (m : Monitor α) : Taken α × Monitor α × Effects :=
  match m.queue.get with
  | (.blocked, queue, effects) => (.blocked, { m with queue, waiting := m.waiting + 1 }, effects)
  | (taken, queue, effects) => (taken, { m with queue }, effects)

def askAgain (m : Monitor α) : Taken α × Monitor α × Effects :=
  { m with notified := m.notified - 1 }.ask

theorem ask_notified (m : Monitor α) : m.ask.2.1.notified = m.notified := by
  unfold ask; split <;> rfl

theorem ask_owed (m : Monitor α) : m.ask.2.1.owed = m.owed := by
  unfold ask; split <;> rfl

/-- Lets everything come to rest: sends the signals that are owed, and lets every notified consumer
ask again. Tells what the consumers got, in order. -/
def settle (m : Monitor α) : List (Taken α × Effects) × Monitor α :=
  if m.owed ≠ 0 then m.deliver.settle
  else if m.notified ≠ 0 then
    let answer := m.askAgain
    let later := answer.2.1.settle
    ((answer.1, answer.2.2) :: later.1, later.2)
  else ([], m)
  termination_by 2 * m.owed + m.notified
  decreasing_by
    · unfold deliver notifyOne; grind
    · simp only [askAgain, ask_notified, ask_owed]; omega

variable [WorkItem α]

def add (m : Monitor α) (x : α) : Monitor α × Effects :=
  let (queue, effects) := m.queue.add x
  ({ m with queue }.signal effects.signal, effects)

def done (m : Monitor α) (x : α) : Monitor α × Effects :=
  let (queue, effects) := m.queue.done x
  ({ m with queue }.signal effects.signal, effects)

end Monitor

end TenantQueue.Queue
