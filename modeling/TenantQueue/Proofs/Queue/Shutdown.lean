import TenantQueue.Proofs.Queue.Wakeup

/-! Shutting a queue down is final and otherwise changes nothing. Whoever looks for an item from then
on leaves without one, also those who were waiting; and what is added and given back later is kept
and counted as it would have been in an open queue. -/
namespace TenantQueue.Queue
open Telemetry
variable {α : Type}

def Action.asks : Action α → Bool
  | .ask => true
  | .wake => true
  | _ => false

namespace WorkQueue

theorem shutDown_effects (q : WorkQueue α) : q.shutDown.1.shutDown.2 = q.shutDown.2 := by
  cases q <;> rfl

theorem counts_shutDown (q : WorkQueue α) : q.shutDown.2.counts = [] := by
  cases q <;> rfl

theorem size_shutDown (q : WorkQueue α) : q.shutDown.1.size = q.size := by
  cases q <;> rfl

variable [DecidableEq α] [WorkItem α]

/-- An item is added as if the queue were open. -/
theorem add_shutDown (q : WorkQueue α) (x : α) :
    q.shutDown.1.add x = ((q.add x).1.shutDown.1, (q.add x).2) := by
  cases q with
  | fair q =>
    simp only [add, shutDown, FairQueue.add, FairQueue.shutDown]
    split <;> rfl
  | fifo q => rfl

/-- An item is given back as if the queue were open. -/
theorem done_shutDown (q : WorkQueue α) (x : α) :
    q.shutDown.1.done x = ((q.done x).1.shutDown.1, (q.done x).2) := by
  cases q with
  | fair q =>
    simp only [done, shutDown, FairQueue.done, FairQueue.shutDown]
    split
    · rfl
    · split <;> rfl
  | fifo q => rfl

/-- An item that waits goes on waiting, unless it is handed out. -/
theorem Sound.mem_ready_add {q : WorkQueue α} (h : q.Sound) {x : α} (hx : x ∈ q.ready) (y : α) :
    x ∈ (q.add y).1.ready := by
  obtain ⟨hd, hp⟩ := (h.mem_ready x).1 hx
  refine ((h.add y).mem_ready x).2 ⟨?_, fun hp' => hp ((h.isProcessing_add y x).1 hp')⟩
  cases hy : q.home y with
  | none => rwa [(q.rejects hy).1.1]
  | some t => exact (h.isDirty_add hy x).2 (.inr hd)

theorem Sound.mem_ready_done {q : WorkQueue α} (h : q.Sound) {x : α} (hx : x ∈ q.ready) (y : α) :
    x ∈ (q.done y).1.ready := by
  obtain ⟨hd, hp⟩ := (h.mem_ready x).1 hx
  refine ((h.done y).mem_ready x).2 ⟨(h.isDirty_done y x).2 hd, fun hp' => hp ?_⟩
  exact ((h.isProcessing_done y x).1 hp').2

end WorkQueue

namespace Monitor
variable {m m' : Monitor α}

theorem queue_shutDown (m : Monitor α) : m.shutDown.1.queue = m.queue.shutDown.1 :=
  queue_signal _ _

def Shuts (m m' : Monitor α) : Prop := m.queue = m'.queue.shutDown.1

theorem Shuts.shuttingDown (h : Shuts m m') : m.queue.shuttingDown = true := by
  rw [h]
  exact WorkQueue.shuttingDown_shutDown _

variable [DecidableEq α]

theorem ask_of_shuttingDown (hd : m.queue.shuttingDown = true) : m.ask = (.closed, m, {}) := by
  unfold ask
  rw [WorkQueue.get_of_shuttingDown hd]

theorem askAgain_of_shuttingDown (hd : m.queue.shuttingDown = true) :
    m.askAgain = (.closed, { m with notified := m.notified - 1 }, {}) :=
  ask_of_shuttingDown (m := { m with notified := m.notified - 1 }) hd

variable [WorkItem α]

def counts : List (Action α) → Monitor α → List Counter
  | [], _ => []
  | action :: actions, m => (m.act action).2.2.counts ++ counts actions (m.step action)

theorem counts_append (actions later : List (Action α)) (m : Monitor α) :
    counts (actions ++ later) m = counts actions m ++ counts later (m.run actions) := by
  induction actions generalizing m with
  | nil => rfl
  | cons action actions ih =>
    rw [List.cons_append, counts, counts, ih, List.append_assoc]
    rfl

/-- Looking for an item in a queue that is shutting down leaves it alone and records nothing. -/
theorem asks_of_shuttingDown (hd : m.queue.shuttingDown = true) {action : Action α}
    (ha : action.asks = true) :
    (m.step action).queue = m.queue ∧ (m.act action).2.2.counts = [] := by
  cases action with
  | ask => simp only [step, act, ask_of_shuttingDown hd, and_self]
  | wake =>
    simp only [step, act, askAgain_of_shuttingDown hd]
    split <;> exact ⟨rfl, rfl⟩
  | _ => cases ha

/-- A step that does not look for an item goes the same way in both. -/
theorem Shuts.step (h : Shuts m m') {action : Action α} (ha : action.asks = false) :
    Shuts (m.step action) (m'.step action) ∧
      (m.act action).2.2.counts = (m'.act action).2.2.counts := by
  unfold Shuts at h ⊢
  cases action with
  | add x =>
    simp only [Monitor.step, act, queue_add, h, WorkQueue.add_shutDown, true_and]
    simp only [Monitor.add, h, WorkQueue.add_shutDown]
  | done x =>
    simp only [Monitor.step, act, queue_done, h, WorkQueue.done_shutDown, true_and]
    simp only [Monitor.done, h, WorkQueue.done_shutDown]
  | deliver => simp only [Monitor.step, act, queue_deliver, h, and_self]
  | shutDown =>
    simp only [Monitor.step, act, queue_shutDown, h, true_and]
    simp only [Monitor.shutDown, h, WorkQueue.shutDown_effects]
  | ask => cases ha
  | wake => cases ha

/-- The run of a queue that is shutting down is that of an open one, without those who look for an
item. -/
theorem Shuts.run (h : Shuts m m') (actions : List (Action α)) :
    Shuts (m.run actions) (m'.run (actions.filter (!·.asks))) ∧
      counts actions m = counts (actions.filter (!·.asks)) m' := by
  induction actions generalizing m m' with
  | nil => exact ⟨h, rfl⟩
  | cons action actions ih =>
    cases ha : action.asks with
    | true =>
      obtain ⟨hqueue, hcounts⟩ := asks_of_shuttingDown h.shuttingDown ha
      have hnext : Shuts (m.step action) m' := hqueue.trans h
      simp only [List.filter_cons, ha, Bool.not_true, Bool.false_eq_true, if_false, counts, hcounts,
        List.nil_append]
      exact ih hnext
    | false =>
      obtain ⟨hnext, hcounts⟩ := h.step ha
      obtain ⟨hrun, hrest⟩ := ih hnext
      simp only [List.filter_cons, ha, Bool.not_false, if_true, counts, hcounts, hrest]
      exact ⟨hrun, trivial⟩

/-- In a queue that is shutting down nothing stops waiting. -/
theorem Awake.mem_ready_step (h : m.Awake) (hd : m.queue.shuttingDown = true) {x : α}
    (hx : x ∈ m.queue.ready) (action : Action α) : x ∈ (m.step action).queue.ready := by
  cases ha : action.asks with
  | true => rwa [(asks_of_shuttingDown hd ha).1]
  | false =>
    cases action with
    | add y =>
      simp only [Monitor.step, queue_add]
      exact h.sound.mem_ready_add hx y
    | done y =>
      simp only [Monitor.step, queue_done]
      exact h.sound.mem_ready_done hx y
    | deliver =>
      simp only [Monitor.step, queue_deliver]
      exact hx
    | shutDown =>
      simp only [Monitor.step, queue_shutDown, WorkQueue.ready, WorkQueue.parts_shutDown]
      exact hx
    | ask => cases ha
    | wake => cases ha

theorem Awake.mem_ready_run (h : m.Awake) (hd : m.queue.shuttingDown = true) {x : α}
    (hx : x ∈ m.queue.ready) (actions : List (Action α)) : x ∈ (m.run actions).queue.ready := by
  induction actions generalizing m with
  | nil => exact hx
  | cons action actions ih =>
    have hd' : (m.step action).queue.shuttingDown = true := (shuttingDown_step m action).2 (.inr hd)
    exact ih (h.step action) hd' (h.mem_ready_step hd hx action)

/-- Wherever in a run a queue is shut down, it stays so. Nobody waits from then on, and whoever looks
for an item, or looks again after having waited, gets none, changes nothing and is not counted.
Otherwise everything is as in the run without the shutdown and without those who look for an item
after it: what the queue holds, in which order and for which tenants, which tenant comes next, and
what is recorded. So whatever was waiting still is. -/
theorem shutdown_final (flavour : Flavour) (name : Option String)
    (before later : List (Action α)) :
    let start : Monitor α := { queue := .empty flavour name }
    let m := start.run (before ++ .shutDown :: later)
    let kept := later.filter (!·.asks)
    let m' := start.run (before ++ kept)
    (m.queue.shuttingDown = true ∧ m.waiting = 0 ∧ m.act .ask = (some .closed, m, {}) ∧
        (m.notified ≠ 0 →
          m.act .wake = (some .closed, { m with notified := m.notified - 1 }, {}))) ∧
      (m.queue = m'.queue.shutDown.1 ∧ m.queue.parts = m'.queue.parts ∧
        m.queue.size = m'.queue.size) ∧
      counts (before ++ .shutDown :: later) start = counts (before ++ kept) start ∧
      ∀ x ∈ (start.run before).queue.ready, x ∈ m.queue.ready := by
  intro start m kept m'
  have hbefore : (start.run before).Awake := (awake_start flavour name).run before
  have hrun : m = ((start.run before).step .shutDown).run later := by
    simp only [m, run_append]
    rfl
  have hrun' : m' = (start.run before).run kept := run_append before kept start
  have hfirst : Shuts ((start.run before).step .shutDown) (start.run before) :=
    queue_shutDown (start.run before)
  obtain ⟨hshuts, hcounts⟩ := hfirst.run later
  rw [← hrun, ← hrun'] at hshuts
  have hd : m.queue.shuttingDown = true := hshuts.shuttingDown
  have hawake : m.Awake := (awake_start flavour name).run _
  refine ⟨⟨hd, hawake.released hd, ?_, fun hn => ?_⟩, ⟨hshuts, ?_, ?_⟩, ?_, fun x hx => ?_⟩
  · simp only [act, ask_of_shuttingDown hd]
  · simp only [act, if_neg hn, askAgain_of_shuttingDown hd]
  · rw [hshuts, WorkQueue.parts_shutDown]
  · rw [hshuts, WorkQueue.size_shutDown]
  · have hnone : ((start.run before).act .shutDown).2.2.counts = [] :=
      WorkQueue.counts_shutDown _
    rw [counts_append, counts_append, counts, hnone, hcounts, List.nil_append]
  · rw [hrun]
    refine (hbefore.step .shutDown).mem_ready_run hfirst.shuttingDown ?_ later
    rw [show ((start.run before).step .shutDown).queue = _ from hfirst, WorkQueue.ready,
      WorkQueue.parts_shutDown]
    exact hx

end Monitor

end TenantQueue.Queue
