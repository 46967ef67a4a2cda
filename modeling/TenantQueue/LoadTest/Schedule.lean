import TenantQueue.LoadTest.Round

/-! One schedule of a round, which goes by a clock of its own. Signals and new keys come first, then
the first worker that is able to go on; only when every worker waits does time pass until the next
of them is due. The outcome of a round does not depend on its schedule. -/
namespace TenantQueue.LoadTest
open Queue

namespace Round

def able (r : Round) : Worker → Bool
  | .parked => r.monitor.notified ≠ 0
  | .working _ deadline => deadline ≤ r.now
  | .ended => false
  | _ => true

def deadline? : Worker → Option Nat
  | .working _ deadline => some deadline
  | _ => none

def next? (r : Round) : Option Turn :=
  if r.monitor.owed ≠ 0 then some .signal
  else if r.unadded ≠ [] then some .adder
  else match r.workers.findIdx? r.able with
    | some i => some (.worker i)
    | none => ((r.workers.filterMap deadline?).min?).map fun due => .tick (due - r.now)

def turnTime (r : Round) : Nat :=
  match r.monitor.queue.flavour with
  | .fair => 2
  | .fifo => 1

def drainFor : Nat → Round → Round
  | 0, r => r
  | fuel + 1, r =>
    match r.next? with
    | none => r
    | some turn => drainFor fuel ((r.step turn).step (.tick r.turnTime))

/-- More turns than a round can have that begins like this. An item is handed out at most once per
cycle, and once more if it was waiting before. -/
def turnLimit (r : Round) : Nat :=
  16 * ((r.cycles + 2) * (r.unadded.length + r.monitor.queue.size) + r.workers.length + 1)

def drain (r : Round) : Round := r.drainFor r.turnLimit

theorem drainFor_eq_run (fuel : Nat) (r : Round) : ∃ turns, r.drainFor fuel = r.run turns := by
  induction fuel generalizing r with
  | zero => exact ⟨[], rfl⟩
  | succ fuel ih =>
    unfold drainFor
    split
    · exact ⟨[], rfl⟩
    · next turn _ =>
      obtain ⟨turns, h⟩ := ih ((r.step turn).step (.tick r.turnTime))
      exact ⟨turn :: .tick r.turnTime :: turns, h⟩

/-- The schedule is one of the interleavings. -/
theorem drain_eq_run (r : Round) : ∃ turns, r.drain = r.run turns := drainFor_eq_run _ r

end Round

end TenantQueue.LoadTest
