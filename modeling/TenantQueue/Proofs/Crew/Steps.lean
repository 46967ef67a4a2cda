import TenantQueue.Queue.Crew
import TenantQueue.Proofs.Queue.Wakeup

/-! What a turn of a crew can do. A turn that cannot be taken changes nothing; whatever holds of every
crew that can be reached is shown by cases on the steps of the others, and for a shutdown. -/
namespace TenantQueue.Queue.Crew
variable {α : Type} [DecidableEq α]

/-- Consumer `i` asks the queue, whose monitor is `m` once a notified consumer has given up its
signal. -/
inductive Asks (c : Crew α) (i : Nat) : Monitor α → Prop where
  | anew (hw : c.consumers[i]? = some .asking) : Asks c i c.monitor
  | again (hw : c.consumers[i]? = some .parked) (hn : c.monitor.notified ≠ 0) :
    Asks c i { c.monitor with notified := c.monitor.notified - 1 }

variable [WorkItem α]

inductive Step (c : Crew α) : Crew α → Prop where
  | adds {i : Nat} {x : α} {rest : List α} (hp : c.producers[i]? = some (x :: rest)) :
    Step c { c with producers := c.producers.set i rest, monitor := (c.monitor.add x).1 }
  | delivers (ho : c.monitor.owed ≠ 0) : Step c { c with monitor := c.monitor.deliver }
  | takes {i : Nat} {m : Monitor α} {x : α} (ha : c.Asks i m) (hg : m.queue.get.1 = .item x) :
    Step c ({ c with
      monitor := m.ask.2.1
      handedOut := x :: c.handedOut
      overlap := c.overlap || x ∈ c.held }.become i (.holding x))
  | parks {i : Nat} {m : Monitor α} (ha : c.Asks i m) (hg : m.queue.get.1 = .blocked) :
    Step c ({ c with monitor := m.ask.2.1 }.become i .parked)
  | leaves {i : Nat} {m : Monitor α} (ha : c.Asks i m) (hg : m.queue.get.1 = .closed) :
    Step c ({ c with monitor := m.ask.2.1 }.become i .ended)
  | readds {i : Nat} {x : α} (hw : c.consumers[i]? = some (.holding x))
    (hr : c.handedOut.count x ≤ c.readds) :
    Step c ({ c with monitor := (c.monitor.add x).1 }.become i (.returning x))
  | keeps {i : Nat} {x : α} (hw : c.consumers[i]? = some (.holding x))
    (hr : c.readds < c.handedOut.count x) : Step c (c.become i (.returning x))
  | returns {i : Nat} {x : α} (hw : c.consumers[i]? = some (.returning x)) :
    Step c ({ c with monitor := (c.monitor.done x).1 }.become i .asking)

variable {c c' : Crew α} {i : Nat} {m : Monitor α}

theorem Asks.answered (ha : c.Asks i m) : c.Step (c.answered i m.ask) := by
  have hfst := m.ask_fst
  rcases hm : m.ask with ⟨x | _ | _, m', effects⟩
  · rw [hm] at hfst
    have h := Step.takes ha hfst.symm
    rwa [hm] at h
  · rw [hm] at hfst
    have h := Step.leaves ha hfst.symm
    rwa [hm] at h
  · rw [hm] at hfst
    have h := Step.parks ha hfst.symm
    rwa [hm] at h

/-- A consumer goes on if it can. -/
theorem step_consumer {w : Consumer α} (hw : c.consumers[i]? = some w) (hable : c.able w = true) :
    c.Step (c.step (.consumer i)) := by
  simp only [step, consumerStep, hw]
  cases w with
  | asking => exact (Asks.anew hw).answered
  | parked =>
    have hn : c.monitor.notified ≠ 0 := by simpa [able] using hable
    rw [if_neg hn]
    exact (Asks.again hw hn).answered
  | holding x =>
    by_cases hr : c.handedOut.count x ≤ c.readds
    · simp only [if_pos hr]
      exact .readds hw hr
    · simp only [if_neg hr]
      exact .keeps hw (Nat.lt_of_not_le hr)
  | returning x => exact .returns hw
  | ended => cases hable

theorem step_unable {w : Consumer α} (hw : c.consumers[i]? = some w) (hable : c.able w = false) :
    c.step (.consumer i) = c := by
  simp only [step, consumerStep, hw]
  cases w with
  | parked =>
    have hn : c.monitor.notified = 0 := by simpa [able] using hable
    rw [if_pos hn]
  | ended => rfl
  | _ => cases hable

theorem step_producer {x : α} {rest : List α} (hp : c.producers[i]? = some (x :: rest)) :
    c.Step (c.step (.producer i)) := by
  simp only [step, producerStep, hp]
  exact .adds hp

theorem step_signal (ho : c.monitor.owed ≠ 0) : c.Step (c.step .signal) := .delivers ho

theorem step_spec (c : Crew α) (turn : CrewTurn) :
    turn = .shutDown ∨ c.step turn = c ∨ c.Step (c.step turn) := by
  cases turn with
  | producer i =>
    right
    cases hp : c.producers[i]? with
    | none => exact .inl (by simp only [step, producerStep, hp])
    | some items =>
      cases items with
      | nil => exact .inl (by simp only [step, producerStep, hp])
      | cons x rest => exact .inr (step_producer hp)
  | consumer i =>
    right
    cases hw : c.consumers[i]? with
    | none => exact .inl (by simp only [step, consumerStep, hw])
    | some w =>
      cases hable : c.able w with
      | true => exact .inr (step_consumer hw hable)
      | false => exact .inl (step_unable hw hable)
  | signal =>
    right
    by_cases ho : c.monitor.owed = 0
    · exact .inl (by simp only [step, Monitor.deliver, ho, if_true])
    · exact .inr (step_signal ho)
  | shutDown => exact .inl rfl

/-- What every step and a shutdown keep holds after every run. -/
theorem run_induction {P : Crew α → Prop} (hstep : ∀ c c', P c → Step c c' → P c')
    (hdown : ∀ c : Crew α, P c → P { c with monitor := c.monitor.shutDown.1 })
    (turns : List CrewTurn) (h : P c) : P (c.run turns) := by
  induction turns generalizing c with
  | nil => exact h
  | cons turn turns ih =>
    apply ih (c := c.step turn)
    rcases step_spec c turn with rfl | he | hs
    · exact hdown c h
    · rwa [he]
    · exact hstep c _ h hs

end TenantQueue.Queue.Crew
