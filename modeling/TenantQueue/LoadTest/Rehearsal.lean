import TenantQueue.LoadTest.Test

/-! A load test in virtual time, in which nobody has to wait: the clock is moved on by what each
move takes, and over the times in which every worker waits. It may be cancelled at a given time. -/
namespace TenantQueue.LoadTest

def Test.next? (t : Test) : Option Move :=
  if t.cancelling ≠ 0 then some .silence
  else match t.stage with
    | .ended _ => none
    | .draining work =>
      match work.next? with
      | some turn => some (.within turn)
      | none => if work.isOver then some .proceed else none
    | _ => some .proceed

def Test.pass (t : Test) : Nat × Test :=
  match t.stage with
  | .draining work => (work.turnTime, t.step (.within (.tick work.turnTime)))
  | _ => (1, t)

structure Rehearsal where
  test : Test
  now : Nat := 0
  cancelAt : Option Nat := none
  deriving Repr

namespace Rehearsal

def make (s : Rehearsal) : Move → Rehearsal
  | .within (.tick n) =>
    let n := (s.cancelAt.map fun due => min n (due - s.now)).getD n
    { s with now := s.now + n, test := s.test.step (.within (.tick n)) }
  | move =>
    let (taken, test) := (s.test.step move).pass
    { s with now := s.now + taken, test }

def next? (s : Rehearsal) : Option Move :=
  match s.cancelAt with
  | some due => if due ≤ s.now then some .cancel else s.test.next?
  | none => s.test.next?

def runFor : Nat → Rehearsal → Rehearsal
  | 0, s => s
  | fuel + 1, s =>
    match s.next? with
    | none => s
    | some .cancel => runFor fuel ({ s with cancelAt := none }.make .cancel)
    | some move => runFor fuel (s.make move)

theorem make_eq_run (s : Rehearsal) (move : Move) :
    ∃ moves, (s.make move).test = s.test.run moves := by
  have pass (t : Test) : ∃ moves, t.pass.2 = t.run moves := by
    unfold Test.pass
    split
    · next work _ => exact ⟨[.within (.tick work.turnTime)], rfl⟩
    · exact ⟨[], rfl⟩
  unfold make
  split
  · next n =>
    exact ⟨[.within (.tick ((s.cancelAt.map fun due => min n (due - s.now)).getD n))], rfl⟩
  · obtain ⟨moves, h⟩ := pass (s.test.step move)
    exact ⟨move :: moves, h⟩

theorem runFor_eq_run (fuel : Nat) (s : Rehearsal) :
    ∃ moves, (runFor fuel s).test = s.test.run moves := by
  induction fuel generalizing s with
  | zero => exact ⟨[], rfl⟩
  | succ fuel ih =>
    have step (s' : Rehearsal) (h : s'.test = s.test) (move : Move) :
        ∃ moves, (runFor fuel (s'.make move)).test = s.test.run moves := by
      obtain ⟨first, h₁⟩ := s'.make_eq_run move
      obtain ⟨rest, h₂⟩ := ih (s'.make move)
      exact ⟨first ++ rest, by rw [h₂, h₁, h, Test.run_append]⟩
    unfold runFor
    split
    · exact ⟨[], rfl⟩
    · exact step { s with cancelAt := none } rfl .cancel
    · next move _ _ => exact step s rfl move

def moveLimit (t : Test) : Nat :=
  (2 * t.options.rounds + 1) *
    (16 * ((t.options.cycles + 2) * t.profile.size + t.options.workers + 2) + 16)

end Rehearsal

/-- A test that nobody cancels, or that is cancelled at a time given in nanoseconds; a test that is
cancelled at once makes no rounds. -/
def Test.rehearse (t : Test) (cancelAt : Option Nat := none) : Test :=
  (Rehearsal.runFor (Rehearsal.moveLimit t) { test := t, cancelAt }).test

/-- A rehearsal is one of the interleavings of the test with those who cancel it. -/
theorem Test.rehearse_eq_run (t : Test) (cancelAt : Option Nat) :
    ∃ moves, t.rehearse cancelAt = t.run moves := Rehearsal.runFor_eq_run _ _

end TenantQueue.LoadTest
