import TenantQueue.Proofs.Queue.Isolation
import TenantQueue.Proofs.Queue.Shutdown

/-! Calls that must have no effect. An item that belongs to no tenant, an item given back that is not
checked out, and an item added that is dirty already leave a queue as it is. A run without them is
seen to go the same way, though fewer signals are sent in it. -/
namespace TenantQueue.Queue
open Telemetry
variable {α : Type}

theorem Ring.assign_eq_self {κ ν : Type} [BEq κ] [LawfulBEq κ] {es : List (κ × ν)} {k : κ} {v : ν}
    (h : es.lookup k = some v) : Ring.assign k v es = es := by
  induction es with
  | nil => cases h
  | cons e es ih =>
    rw [List.lookup_cons] at h
    unfold Ring.assign
    cases hk : k == e.1 with
    | true =>
      rw [hk] at h
      cases h
      rfl
    | false =>
      rw [hk] at h
      rw [if_neg Bool.false_ne_true, ih h]

namespace Rota
variable {r : Rota α} {t : String} {x : α}

theorem lookup_of_dirty (hd : x ∈ (r.part t).dirty) : r.tenants.lookup t = some (r.part t) := by
  unfold part at hd ⊢
  cases hl : r.tenants.lookup t with
  | none =>
    rw [hl] at hd
    cases hd
  | some items => rfl

variable [DecidableEq α]

theorem put_eq_self (hd : x ∈ (r.part t).dirty) : r.put t x = r := by
  have hadd : (r.part t).add x = r.part t := if_pos hd
  rw [put, hadd, Ring.assign_eq_self (lookup_of_dirty hd)]

theorem finish_eq_self (hp : x ∉ (r.part t).processing) : r.finish t x = (false, r) := by
  unfold finish
  cases hl : r.tenants.lookup t with
  | none => rfl
  | some items =>
    have hitems : r.part t = items := by
      unfold part
      rw [hl]
      rfl
    rw [hitems] at hp
    simp only [DedupQueue.done_eq_self hp, Ring.assign_eq_self hl]

end Rota

namespace WorkQueue
variable [DecidableEq α] [WorkItem α] {q : WorkQueue α} {x : α} {t : String}

/-- An item that is dirty already is counted, and nothing else. -/
theorem Sound.add_of_isDirty (h : q.Sound) (hx : q.home x = some t) (hd : q.IsDirty x) :
    q.add x = (q, { counts := [.adds], signal := wake q.flavour }) := by
  obtain ⟨r, hi, hr⟩ := h
  have hmem : x ∈ (r.part t).dirty := (isDirty_iff_part hi hr hx).1 hd
  cases hi with
  | fair name r =>
    have ht := tenant_of_home hx
    have hk : t ∈ r.keys := Rota.mem_keys_iff.2 (by rw [Rota.lookup_of_dirty hmem]; simp)
    have hstate : ((r.toFair name).add x).1 = r.toFair name := by
      rw [(toFair_add name r ht).1, Rota.put_eq_self hmem]
    have heffects := effects_add name r x
    simp only [Rota.effects, ht, if_pos hk] at heffects
    simp only [WorkQueue.add, hstate, heffects]
    rfl
  | fifo name items served down =>
    cases hx
    have hadd : items.add x = items := if_pos (by simpa [Rota.part] using hmem)
    simp only [WorkQueue.add, FifoQueue.add, hadd]
    rfl

/-- An item that is not checked out is not even counted. -/
theorem Sound.done_of_not_isProcessing (h : q.Sound) (hx : q.home x = some t)
    (hp : ¬ q.IsProcessing x) : q.done x = (q, {}) := by
  obtain ⟨r, hi, hr⟩ := h
  have hmem : x ∉ (r.part t).processing := fun hm => hp ((isProcessing_iff_part hi hr hx).2 hm)
  cases hi with
  | fair name r =>
    have ht := tenant_of_home hx
    have hstate : ((r.toFair name).done x).1 = r.toFair name := by
      rw [(toFair_done name r ht).1, Rota.finish_eq_self hmem]
    have heffects := effects_done name r x
    simp only [Rota.effects, ht, Rota.finish_eq_self hmem] at heffects
    simp only [WorkQueue.done, hstate, heffects]
    rfl
  | fifo name items served down =>
    cases hx
    have hdone : items.done x = (false, items) :=
      DedupQueue.done_eq_self (by simpa [Rota.part] using hmem)
    simp only [WorkQueue.done, FifoQueue.done, hdone]
    rfl

def Drop (effects : Effects) : Prop :=
  effects.counts = [.dropped] ∧ (∃ e, effects.events = [e] ∧ e.level = .warn) ∧
    effects.signal = .none

theorem drop_add (hx : q.home x = none) : (q.add x).1 = q ∧ Drop (q.add x).2 := by
  refine ⟨(q.rejects hx).1.1, ?_⟩
  cases q with
  | fair q =>
    cases ht : WorkItem.tenant x with
    | error e =>
      simp only [add, FairQueue.add, ht]
      exact ⟨rfl, ⟨_, rfl, rfl⟩, rfl⟩
    | ok t => cases hx.symm.trans (home_of_tenant ht)
  | fifo q => cases hx

theorem drop_done (hx : q.home x = none) : (q.done x).1 = q ∧ Drop (q.done x).2 := by
  refine ⟨(q.rejects hx).2.1, ?_⟩
  cases q with
  | fair q =>
    cases ht : WorkItem.tenant x with
    | error e =>
      simp only [done, FairQueue.done, ht]
      exact ⟨rfl, ⟨_, rfl, rfl⟩, rfl⟩
    | ok t => cases hx.symm.trans (home_of_tenant ht)
  | fifo q => cases hx

end WorkQueue

section Steps
variable [WorkItem α]

inductive Idle (q : WorkQueue α) : Action α → Prop where
  | addForeign {x : α} (hx : q.home x = none) : Idle q (.add x)
  | doneForeign {x : α} (hx : q.home x = none) : Idle q (.done x)
  | doneStray {x : α} {t : String} (hx : q.home x = some t) (hp : ¬ q.IsProcessing x) :
    Idle q (.done x)
  | addAgain {x : α} {t : String} (hx : q.home x = some t) (hd : q.IsDirty x) : Idle q (.add x)

end Steps

structure Seen (α : Type) where
  action : Action α
  answer : Option (Taken α)
  effects : Effects
  queue : WorkQueue α

namespace Monitor
variable {m m' : Monitor α}

/-- The second monitor keeps up with the first, whose queue is the same, with fewer signals. -/
structure Follows (m m' : Monitor α) : Prop where
  queue_eq : m'.queue = m.queue
  consumers_eq : m'.consumers = m.consumers
  owed_le : m'.owed ≤ m.owed
  pending_le : m'.notified + m'.owed ≤ m.notified + m.owed

theorem Follows.signal (h : Follows m m') (s : Signal) : Follows (m.signal s) (m'.signal s) := by
  obtain ⟨hq, hc, ho, hp⟩ := h
  simp only [consumers] at hc
  cases s with
  | none => exact ⟨hq, hc, ho, hp⟩
  | one =>
    refine ⟨by rw [queue_signal, queue_signal, hq], ?_, ?_, ?_⟩
    · rw [consumers_signal, consumers_signal]
      exact hc
    · simp only [Monitor.signal, notifyOne]
      split <;> split <;> exact ho
    · simp only [Monitor.signal, notifyOne]
      split <;> split
      · exact hp
      all_goals
        simp only
        omega
  | oneUnlocked => exact ⟨hq, hc, Nat.succ_le_succ ho, by simp only [Monitor.signal]; omega⟩
  | all =>
    refine ⟨hq, ?_, ho, ?_⟩
    all_goals
      simp only [Monitor.signal, notifyAll, consumers]
      omega

/-- A signal that the second monitor does not send. -/
theorem Follows.signal_left (h : Follows m m') (flavour : Flavour) :
    Follows (m.signal (WorkQueue.wake flavour)) m' := by
  obtain ⟨hq, hc, ho, hp⟩ := h
  cases flavour with
  | fair =>
    refine ⟨by rw [queue_signal, hq], by rw [consumers_signal, hc], ?_, ?_⟩
    · simp only [WorkQueue.wake, Monitor.signal, notifyOne]
      split <;> exact ho
    · simp only [WorkQueue.wake, Monitor.signal, notifyOne]
      split
      · exact hp
      · simp only
        omega
  | fifo => exact ⟨hq, hc, Nat.le_succ_of_le ho, Nat.le_succ_of_le hp⟩

theorem Follows.withQueue (h : Follows m m') (queue : WorkQueue α) :
    Follows { m with queue } { m' with queue } :=
  ⟨rfl, h.consumers_eq, h.owed_le, h.pending_le⟩

/-- The second monitor sends a signal that is owed only if it owes as many. -/
theorem Follows.deliver (h : Follows m m') :
    Follows m.deliver (if m'.owed = m.owed then m'.deliver else m') := by
  obtain ⟨hq, hc, ho, hp⟩ := h
  by_cases howed : m.owed = 0
  · have hstep : m.deliver = m := if_pos howed
    have hstep' : m'.deliver = m' := if_pos (by omega)
    rw [hstep, hstep', ite_self]
    exact ⟨hq, hc, ho, hp⟩
  · have hstep : m.deliver = { m with owed := m.owed - 1 }.notifyOne := if_neg howed
    split
    · next heq =>
      have hstep' : m'.deliver = { m' with owed := m'.owed - 1 }.notifyOne := if_neg (heq ▸ howed)
      have hless : Follows { m with owed := m.owed - 1 } { m' with owed := m'.owed - 1 } :=
        ⟨hq, hc, by simp only; omega, by simp only; omega⟩
      rw [hstep, hstep']
      exact hless.signal .one
    · next hne =>
      simp only [consumers] at hc
      rw [hstep, notifyOne]
      split
      · next hw => exact ⟨hq, hc, by simp only; omega, by simp only at hw ⊢; omega⟩
      · next hw =>
        refine ⟨hq, ?_, by simp only; omega, by simp only; omega⟩
        simp only [consumers] at hw ⊢
        omega

variable [DecidableEq α]

theorem ask_eq (m : Monitor α) :
    m.ask.2.1 = { m with
      queue := m.queue.get.2.1
      waiting := m.waiting + if m.queue.get.1 = .blocked then 1 else 0 } := by
  by_cases hg : m.queue.get.1 = .blocked
  · rw [ask_blocked hg, if_pos hg]
  · rw [ask_answered hg, if_neg hg]
    rfl

theorem ask_effects (m : Monitor α) : m.ask.2.2 = m.queue.get.2.2 := by
  unfold ask
  rcases m.queue.get with ⟨_ | _ | _, queue, effects⟩ <;> rfl

/-- Nobody sees the sending of a signal, nor a consumer that looks again and goes on waiting. -/
def Silent (m : Monitor α) : Action α → Prop
  | .deliver => True
  | .wake => m.notified = 0 ∨ m.queue.get.1 = .blocked
  | _ => False

instance (m : Monitor α) : (action : Action α) → Decidable (m.Silent action)
  | .deliver => inferInstanceAs (Decidable True)
  | .wake => inferInstanceAs (Decidable (m.notified = 0 ∨ m.queue.get.1 = .blocked))
  | .add _ => inferInstanceAs (Decidable False)
  | .done _ => inferInstanceAs (Decidable False)
  | .ask => inferInstanceAs (Decidable False)
  | .shutDown => inferInstanceAs (Decidable False)

variable [WorkItem α]

def seen (m : Monitor α) (action : Action α) : List (Seen α) :=
  if m.Silent action then []
  else [⟨action, (m.act action).1, (m.act action).2.2, (m.step action).queue⟩]

def trace : List (Action α) → Monitor α → List (Seen α)
  | [], _ => []
  | action :: actions, m => m.seen action ++ trace actions (m.step action)

def Erasable : List (Action α × Bool) → Monitor α → Prop
  | [], _ => True
  | (action, erased) :: steps, m =>
    (erased = true → Idle m.queue action) ∧ Erasable steps (m.step action)

def unmarked : List (Action α × Bool) → Monitor α → List (Seen α)
  | [], _ => []
  | (action, erased) :: steps, m =>
    (if erased then [] else m.seen action) ++ unmarked steps (m.step action)

theorem trace_append (actions later : List (Action α)) (m : Monitor α) :
    trace (actions ++ later) m = trace actions m ++ trace later (m.run actions) := by
  induction actions generalizing m with
  | nil => rfl
  | cons action actions ih =>
    rw [List.cons_append, trace, trace, ih, List.append_assoc]
    rfl

theorem trace_singleton (m : Monitor α) (action : Action α) : trace [action] m = m.seen action :=
  List.append_nil _

theorem seen_deliver (m : Monitor α) : m.seen .deliver = [] := rfl

theorem seen_in_vain (h : m.notified = 0 ∨ m.queue.get.1 = .blocked) : m.seen .wake = [] := if_pos h

/-- What a consumer is seen to get that looks again. -/
theorem seen_wake (hn : m.notified ≠ 0) :
    m.seen .wake =
      if m.queue.get.1 = .blocked then []
      else [⟨.wake, some m.queue.get.1, m.queue.get.2.2, m.queue.get.2.1⟩] := by
  simp only [seen, Silent, hn, false_or, act, step, if_false, askAgain, ask_fst, ask_effects,
    queue_ask]

theorem step_wake (hn : m.notified ≠ 0) :
    m.step .wake = { m with
      queue := m.queue.get.2.1
      waiting := m.waiting + if m.queue.get.1 = .blocked then 1 else 0
      notified := m.notified - 1 } := by
  simp only [step, hn, if_false, askAgain, ask_eq]

theorem seen_eq (hq : m'.queue = m.queue) {action : Action α} (ha : action ≠ .wake) :
    m'.seen action = m.seen action := by
  cases action with
  | add x =>
    simp only [seen, Silent, act, step, queue_add, hq]
    simp only [add, hq]
  | done x =>
    simp only [seen, Silent, act, step, queue_done, hq]
    simp only [done, hq]
  | ask => simp only [seen, Silent, act, step, ask_fst, ask_effects, queue_ask, hq]
  | wake => exact absurd rfl ha
  | deliver => rfl
  | shutDown =>
    simp only [seen, Silent, act, step, queue_shutDown, hq]
    simp only [shutDown, hq]

/-- A consumer that was notified in the second monitor too looks again in both. -/
theorem Follows.wake (h : Follows m m') (hn : m.notified ≠ 0) (hn' : m'.notified ≠ 0) :
    trace [.wake] m' = m.seen .wake ∧ Follows (m.step .wake) (m'.run [.wake]) := by
  have hrun : m'.run [.wake] = m'.step .wake := rfl
  rw [trace_singleton, seen_wake hn, seen_wake hn', hrun, step_wake hn, step_wake hn', h.queue_eq]
  obtain ⟨-, hc, ho, hp⟩ := h
  simp only [consumers] at hc
  refine ⟨rfl, rfl, ?_, ho, ?_⟩
  · simp only [consumers]
    omega
  · simp only
    omega

/-- While somebody waits and nobody was notified, a signal is on its way for an item. -/
theorem Awake.owed_ne_zero (h : m.Awake) (hw : 0 < m.waiting) (hn : m.notified = 0)
    (hg : m.queue.get.1 ≠ .blocked) : m.owed ≠ 0 := by
  have hopen : m.queue.shuttingDown = false := by
    by_contra hd
    have := h.released (by simpa using hd)
    omega
  have hsize : 0 < m.queue.size := by
    cases ht : m.queue.get.1 with
    | item x =>
      have := h.sound.size_get ht
      omega
    | closed => simp [h.sound.get_closed ht] at hopen
    | blocked => exact absurd ht hg
  have := h.covered hopen hw
  omega

/-- A consumer that only the first monitor notified is notified in the second one now. -/
theorem Follows.wake_delivered (h : Follows m m') (ha' : m'.Awake) (hn : m.notified ≠ 0)
    (hn' : m'.notified = 0) (hg : m.queue.get.1 ≠ .blocked) :
    trace [.deliver, .wake] m' = m.seen .wake ∧
      Follows (m.step .wake) (m'.run [.deliver, .wake]) := by
  obtain ⟨hq, hc, ho, hp⟩ := h
  simp only [consumers] at hc
  have hwaiting : 0 < m'.waiting := by omega
  have howed : m'.owed ≠ 0 := ha'.owed_ne_zero hwaiting hn' (by rwa [hq])
  have hsent : m'.deliver =
      { m' with waiting := m'.waiting - 1, notified := m'.notified + 1, owed := m'.owed - 1 } := by
    rw [Monitor.deliver, if_neg howed, notifyOne]
    exact if_neg (Nat.pos_iff_ne_zero.1 hwaiting)
  have hnotified : m'.deliver.notified ≠ 0 := by simp [hsent]
  have hrun : m'.run [.deliver, .wake] = m'.deliver.step .wake := rfl
  have htrace : trace [.deliver, .wake] m' = m'.deliver.seen .wake := by
    rw [trace, seen_deliver]
    exact trace_singleton ..
  rw [htrace, seen_wake hn, seen_wake hnotified, hrun, step_wake hn, step_wake hnotified,
    queue_deliver, hq, hsent]
  refine ⟨rfl, rfl, ?_, ?_, ?_⟩
  · simp only [consumers]
    omega
  · simp only
    omega
  · simp only
    omega

/-- The signal that woke a consumer in vain is one that the second monitor did not send. -/
theorem Follows.wake_left (h : Follows m m') (ha' : m'.Awake) (hn : m.notified ≠ 0)
    (hn' : m'.notified = 0) (hg : m.queue.get.1 = .blocked) : Follows (m.step .wake) m' := by
  obtain ⟨hq, hc, ho, hp⟩ := h
  have hself : m.queue.get.2.1 = m.queue := by
    have hs : m.queue.Sound := hq ▸ ha'.sound
    exact hs.get_eq_self (by simp [hg])
  simp only [consumers] at hc
  rw [step_wake hn, if_pos hg, hself]
  refine ⟨hq, ?_, ho, ?_⟩
  · simp only [consumers]
    omega
  · simp only
    omega

/-- What the first monitor does is seen of the second too, after whatever signals it takes. -/
theorem Follows.step (h : Follows m m') (ha' : m'.Awake) (action : Action α) :
    ∃ others, trace others m' = m.seen action ∧ Follows (m.step action) (m'.run others) := by
  have hq := h.queue_eq
  cases action with
  | add x =>
    refine ⟨[.add x], (trace_singleton ..).trans (seen_eq hq (by simp)), ?_⟩
    have hstep := (h.withQueue (m.queue.add x).1).signal (m.queue.add x).2.signal
    simpa only [run, List.foldl_cons, List.foldl_nil, Monitor.step, Monitor.add, hq] using hstep
  | done x =>
    refine ⟨[.done x], (trace_singleton ..).trans (seen_eq hq (by simp)), ?_⟩
    have hstep := (h.withQueue (m.queue.done x).1).signal (m.queue.done x).2.signal
    simpa only [run, List.foldl_cons, List.foldl_nil, Monitor.step, Monitor.done, hq] using hstep
  | ask =>
    refine ⟨[.ask], (trace_singleton ..).trans (seen_eq hq (by simp)), ?_⟩
    obtain ⟨-, hc, ho, hp⟩ := h
    simp only [consumers] at hc
    simp only [run, List.foldl_cons, List.foldl_nil, Monitor.step, ask_eq, hq]
    refine ⟨rfl, ?_, ho, hp⟩
    simp only [consumers]
    omega
  | wake =>
    by_cases hn : m.notified = 0
    · have hstep : m.step .wake = m := if_pos hn
      exact ⟨[], (seen_in_vain (.inl hn)).symm, by rwa [hstep]⟩
    · by_cases hn' : m'.notified = 0
      · by_cases hg : m.queue.get.1 = .blocked
        · exact ⟨[], (seen_in_vain (.inr hg)).symm, h.wake_left ha' hn hn' hg⟩
        · exact ⟨[.deliver, .wake], h.wake_delivered ha' hn hn' hg⟩
      · exact ⟨[.wake], h.wake hn hn'⟩
  | deliver =>
    have hstep := h.deliver
    rw [seen_deliver]
    by_cases heq : m'.owed = m.owed
    · rw [if_pos heq] at hstep
      exact ⟨[.deliver], trace_singleton .., hstep⟩
    · rw [if_neg heq] at hstep
      exact ⟨[], rfl, hstep⟩
  | shutDown =>
    refine ⟨[.shutDown], (trace_singleton ..).trans (seen_eq hq (by simp)), ?_⟩
    have hstep := (h.withQueue m.queue.shutDown.1).signal m.queue.shutDown.2.signal
    simpa only [run, List.foldl_cons, List.foldl_nil, Monitor.step, Monitor.shutDown, hq] using hstep

section Residue
variable {x : α} {t : String}

theorem act_add_foreign (hx : m.queue.home x = none) :
    ∃ effects, m.act (.add x) = (none, m, effects) ∧ WorkQueue.Drop effects := by
  obtain ⟨hqueue, hdrop⟩ := WorkQueue.drop_add hx
  refine ⟨(m.queue.add x).2, ?_, hdrop⟩
  simp only [act, add, hqueue, hdrop.2.2, signal]

theorem act_done_foreign (hx : m.queue.home x = none) :
    ∃ effects, m.act (.done x) = (none, m, effects) ∧ WorkQueue.Drop effects := by
  obtain ⟨hqueue, hdrop⟩ := WorkQueue.drop_done hx
  refine ⟨(m.queue.done x).2, ?_, hdrop⟩
  simp only [act, done, hqueue, hdrop.2.2, signal]

theorem act_done_stray (hs : m.queue.Sound) (hx : m.queue.home x = some t)
    (hp : ¬ m.queue.IsProcessing x) : m.act (.done x) = (none, m, {}) := by
  simp only [act, done, hs.done_of_not_isProcessing hx hp, signal]

theorem act_add_again (hs : m.queue.Sound) (hx : m.queue.home x = some t)
    (hd : m.queue.IsDirty x) :
    m.act (.add x) = (none, m.signal (WorkQueue.wake m.queue.flavour),
      { counts := [.adds], signal := WorkQueue.wake m.queue.flavour }) := by
  simp only [act, add, hs.add_of_isDirty hx hd]

end Residue

/-- An idle step is not followed by the second monitor. -/
theorem Follows.idle (h : Follows m m') (hs : m.queue.Sound) {action : Action α}
    (hi : Idle m.queue action) : Follows (m.step action) m' := by
  rw [← act_step]
  cases hi with
  | addForeign hx =>
    obtain ⟨effects, hact, -⟩ := act_add_foreign hx
    rwa [hact]
  | doneForeign hx =>
    obtain ⟨effects, hact, -⟩ := act_done_foreign hx
    rwa [hact]
  | doneStray hx hp => rwa [act_done_stray hs hx hp]
  | addAgain hx hd =>
    rw [act_add_again hs hx hd]
    exact h.signal_left m.queue.flavour

/-- A run without its marked steps is seen to go as the run does with them. -/
theorem Follows.run {steps : List (Action α × Bool)} (h : Follows m m') (ha : m.Awake)
    (ha' : m'.Awake) (he : Erasable steps m) :
    ∃ others, trace others m' = unmarked steps m ∧
      Follows (m.run (steps.map Prod.fst)) (m'.run others) := by
  induction steps generalizing m m' with
  | nil => exact ⟨[], rfl, h⟩
  | cons step steps ih =>
    obtain ⟨action, erased⟩ := step
    obtain ⟨hidle, he⟩ := he
    cases erased with
    | true => exact ih (h.idle ha.sound (hidle rfl)) (ha.step action) ha' he
    | false =>
      obtain ⟨others, htrace, hnext⟩ := h.step ha' action
      obtain ⟨later, hlater, hrun⟩ := ih hnext (ha.step action) (ha'.run others) he
      refine ⟨others ++ later, ?_, ?_⟩
      · rw [trace_append, htrace, hlater]
        rfl
      · rw [run_append]
        exact hrun

/-- Idle steps may be left out of a run, whichever and how many. Every other step is answered alike,
reports the same and leaves the same queue; only the signals that let consumers look again differ,
and as many consumers are left waiting once everything has come to rest. What an idle step does
leave is one drop with one warning if its item belongs to no tenant, nothing at all if an item is
given back that is not checked out, and one addition if an item is dirty already. -/
theorem idle_steps_erased (flavour : Flavour) (name : Option String)
    (steps : List (Action α × Bool)) :
    let start : Monitor α := { queue := .empty flavour name }
    let m := start.run (steps.map Prod.fst)
    (Erasable steps start →
      ∃ others,
        trace others start = unmarked steps start ∧
          (start.run others).queue = m.queue ∧
          (start.run others).consumers = m.consumers ∧
          (m.notified = 0 → m.owed = 0 →
            (start.run others).notified = 0 ∧ (start.run others).owed = 0 ∧
              (start.run others).waiting = m.waiting)) ∧
      ∀ x,
        (m.queue.home x = none →
          (∃ effects, m.act (.add x) = (none, m, effects) ∧ WorkQueue.Drop effects) ∧
            ∃ effects, m.act (.done x) = (none, m, effects) ∧ WorkQueue.Drop effects) ∧
        ((m.queue.home x).isSome → ¬ m.queue.IsProcessing x → m.act (.done x) = (none, m, {})) ∧
        ((m.queue.home x).isSome → m.queue.IsDirty x →
          (m.step (.add x)).queue = m.queue ∧
            (m.act (.add x)).2.2.counts = [.adds] ∧ (m.act (.add x)).2.2.events = []) := by
  intro start m
  have hstart : start.Awake := awake_start flavour name
  have hawake : m.Awake := hstart.run _
  constructor
  · intro he
    have hfirst : Follows start start := ⟨rfl, rfl, Nat.le_refl _, Nat.le_refl _⟩
    obtain ⟨others, htrace, hfollows⟩ := hfirst.run hstart hstart he
    obtain ⟨hqueue, hconsumers, howed, hpending⟩ : Follows m (start.run others) := hfollows
    refine ⟨others, htrace, hqueue, hconsumers, fun hn ho => ?_⟩
    simp only [consumers] at hconsumers
    omega
  · intro x
    refine ⟨fun hx => ⟨act_add_foreign hx, act_done_foreign hx⟩, fun hx hp => ?_, fun hx hd => ?_⟩
    · obtain ⟨t, ht⟩ := Option.isSome_iff_exists.1 hx
      exact act_done_stray hawake.sound ht hp
    · obtain ⟨t, ht⟩ := Option.isSome_iff_exists.1 hx
      rw [← act_step, act_add_again hawake.sound ht hd]
      exact ⟨queue_signal _ _, rfl, rfl⟩

/-- An item added twice wakes two consumers. The one that finds nothing goes on waiting, as it does
where the item is added once. -/
theorem idle_steps_erased_readd :
    let start : Monitor String := { queue := .empty .fair none }
    let steps : List (Action String × Bool) :=
      [(.ask, false), (.ask, false), (.add "a/x", false), (.add "a/x", true), (.add "a/b/c", true),
        (.done "b/x", true), (.wake, false), (.wake, false)]
    Erasable steps start ∧
      ∃ others, trace others start = unmarked steps start ∧ (start.run others).waiting = 1 := by
  intro start steps
  have he : Erasable steps start :=
    ⟨nofun, nofun, nofun, fun _ => .addAgain (t := "a") (by decide) (by decide),
      fun _ => .addForeign (by decide), fun _ => .doneStray (t := "b") (by decide) (by decide),
      nofun, nofun, trivial⟩
  obtain ⟨others, htrace, -, -, hrest⟩ := (idle_steps_erased .fair none steps).1 he
  have hwaiting := (hrest (by decide) (by decide)).2.2
  exact ⟨he, others, htrace, hwaiting.trans (by decide)⟩

end Monitor

end TenantQueue.Queue
