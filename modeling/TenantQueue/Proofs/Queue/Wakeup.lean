import TenantQueue.Queue.Monitor
import TenantQueue.Proofs.Queue.Calls

/-! No consumer waits in vain. While one waits that has got no signal, every waiting item is covered
by a consumer that was notified and has yet to look, or by a signal that is still to be sent.
Consumers that ask in between may take the items that others were woken for. -/
namespace TenantQueue.Queue
variable {α : Type}

inductive Action (α : Type) where
  | add (x : α)
  | done (x : α)
  | ask
  /-- A consumer that was notified looks again. -/
  | wake
  | deliver
  | shutDown
  deriving DecidableEq, Repr

/-- How many there are of a kind, when one member of a list becomes another. -/
theorem countP_set_add {β : Type} (P : β → Bool) {l : List β} {i : Nat} {w : β} (hw : l[i]? = some w)
    (w' : β) :
    (l.set i w').countP P + (if P w then 1 else 0) = l.countP P + if P w' then 1 else 0 := by
  obtain ⟨hi, rfl⟩ := List.getElem?_eq_some_iff.1 hw
  have hle : (if P l[i] then 1 else 0) ≤ l.countP P := by
    split
    · next hp => exact List.countP_pos_iff.2 ⟨_, List.getElem_mem hi, hp⟩
    · exact Nat.zero_le _
  rw [List.countP_set hi]
  omega

namespace Monitor

theorem queue_signal (m : Monitor α) (s : Signal) : (m.signal s).queue = m.queue := by
  cases s with
  | one => simp only [signal, notifyOne]; split <;> rfl
  | _ => rfl

/-- A signal for one consumer either covers an item or finds nobody waiting. -/
theorem signal_wake (m : Monitor α) (flavour : Flavour) :
    (m.signal (WorkQueue.wake flavour)).waiting ≤ m.waiting ∧
      (0 < (m.signal (WorkQueue.wake flavour)).waiting →
        (m.signal (WorkQueue.wake flavour)).notified + (m.signal (WorkQueue.wake flavour)).owed =
          m.notified + m.owed + 1) := by
  cases flavour with
  | fair =>
    simp only [WorkQueue.wake, signal, notifyOne]
    split
    · next h => simp [h]
    · simp only; omega
  | fifo => simp only [WorkQueue.wake, signal]; omega

theorem shutDown_eq (m : Monitor α) :
    m.shutDown.1 = { m with queue := m.queue.shutDown.1, waiting := 0,
                            notified := m.notified + m.waiting } := by
  cases hq : m.queue <;> simp [shutDown, hq, WorkQueue.shutDown, FairQueue.shutDown,
    FifoQueue.shutDown, signal, notifyAll]

theorem queue_deliver (m : Monitor α) : m.deliver.queue = m.queue := by
  unfold deliver notifyOne
  split
  · rfl
  · split <;> rfl

def consumers (m : Monitor α) : Nat := m.waiting + m.notified

theorem consumers_notifyOne (m : Monitor α) : m.notifyOne.consumers = m.consumers := by
  unfold notifyOne consumers
  split
  · rfl
  · simp only
    omega

theorem consumers_signal (m : Monitor α) (s : Signal) : (m.signal s).consumers = m.consumers := by
  cases s with
  | none => rfl
  | one => exact consumers_notifyOne m
  | oneUnlocked => rfl
  | all => simp only [signal, notifyAll, consumers]; omega

theorem consumers_deliver (m : Monitor α) : m.deliver.consumers = m.consumers := by
  unfold deliver
  split
  · rfl
  · exact consumers_notifyOne _

theorem consumers_shutDown (m : Monitor α) : m.shutDown.1.consumers = m.consumers :=
  consumers_signal _ _

section Calls
variable [DecidableEq α] {m : Monitor α}

theorem ask_fst (m : Monitor α) : m.ask.1 = m.queue.get.1 := by
  unfold ask
  rcases m.queue.get with ⟨_ | _ | _, queue, effects⟩ <;> rfl

theorem ask_blocked (hg : m.queue.get.1 = .blocked) :
    m.ask.2.1 = { m with queue := m.queue.get.2.1, waiting := m.waiting + 1 } := by
  unfold ask
  rcases hq : m.queue.get with ⟨_ | _ | _, queue, effects⟩ <;> simp [hq] at hg ⊢

theorem ask_answered (hg : m.queue.get.1 ≠ .blocked) :
    m.ask.2.1 = { m with queue := m.queue.get.2.1 } := by
  unfold ask
  rcases hq : m.queue.get with ⟨_ | _ | _, queue, effects⟩ <;> simp [hq] at hg ⊢

theorem queue_ask (m : Monitor α) : m.ask.2.1.queue = m.queue.get.2.1 := by
  unfold ask
  rcases m.queue.get with ⟨_ | _ | _, queue, effects⟩ <;> rfl

theorem consumers_ask (m : Monitor α) :
    m.ask.2.1.consumers = m.consumers + if m.queue.get.1 = .blocked then 1 else 0 := by
  by_cases hg : m.queue.get.1 = .blocked
  · rw [ask_blocked hg, if_pos hg]
    simp only [consumers]
    omega
  · rw [ask_answered hg, if_neg hg]
    rfl

end Calls

section Law
variable [WorkItem α]

structure Awake (m : Monitor α) : Prop where
  sound : m.queue.Sound
  covered : m.queue.shuttingDown = false → 0 < m.waiting → m.queue.size ≤ m.notified + m.owed
  released : m.queue.shuttingDown = true → m.waiting = 0

variable {m : Monitor α} {queue : WorkQueue α}

/-- Nothing more is waiting than before. -/
theorem Awake.quiet (h : m.Awake) (hs : queue.Sound)
    (hd : queue.shuttingDown = m.queue.shuttingDown) (hle : queue.size ≤ m.queue.size) :
    ({ m with queue } : Monitor α).Awake where
  sound := hs
  covered ho hw := Nat.le_trans hle (h.covered (hd ▸ ho) hw)
  released ho := h.released (hd ▸ ho)

/-- One more item is waiting, and a consumer is signalled. -/
theorem Awake.signalled (h : m.Awake) (hs : queue.Sound)
    (hd : queue.shuttingDown = m.queue.shuttingDown) (hle : queue.size ≤ m.queue.size + 1)
    (flavour : Flavour) :
    (({ m with queue } : Monitor α).signal (WorkQueue.wake flavour)).Awake := by
  obtain ⟨hw, hn⟩ := signal_wake { m with queue } flavour
  have hq := queue_signal { m with queue } (WorkQueue.wake flavour)
  refine ⟨by rwa [hq], fun ho hp => ?_, fun ho => ?_⟩
  · rw [hq] at ho ⊢
    have := h.covered (hd ▸ ho) (Nat.lt_of_lt_of_le hp hw)
    have := hn hp
    simp only at *
    omega
  · rw [hq] at ho
    have := h.released (hd ▸ ho)
    simp only at *
    omega

theorem awake_start (flavour : Flavour) (name : Option String) :
    ({ queue := .empty flavour name } : Monitor α).Awake where
  sound := WorkQueue.sound_empty flavour name
  covered _ h := absurd h (Nat.lt_irrefl 0)
  released _ := rfl

theorem Awake.deliver (h : m.Awake) : m.deliver.Awake := by
  unfold Monitor.deliver
  split
  · exact h
  · next ho =>
    unfold notifyOne
    split
    · next hw => exact ⟨h.sound, fun _ hp => absurd hw (by simp only at hp ⊢; omega), h.released⟩
    · refine ⟨h.sound, fun hd hp => ?_, fun hd => ?_⟩
      · have := h.covered hd (by simp only at hp; omega)
        simp only
        omega
      · have := h.released hd
        simp only
        omega

theorem Awake.shutDown (h : m.Awake) : m.shutDown.1.Awake := by
  rw [shutDown_eq]
  exact ⟨h.sound.shutDown, fun _ hw => absurd hw (Nat.lt_irrefl 0), fun _ => rfl⟩

section Calls
variable [DecidableEq α]

theorem queue_add (m : Monitor α) (x : α) : (m.add x).1.queue = (m.queue.add x).1 :=
  queue_signal _ _

theorem queue_done (m : Monitor α) (x : α) : (m.done x).1.queue = (m.queue.done x).1 :=
  queue_signal _ _

theorem consumers_add (m : Monitor α) (x : α) : (m.add x).1.consumers = m.consumers :=
  consumers_signal _ _

theorem consumers_done (m : Monitor α) (x : α) : (m.done x).1.consumers = m.consumers :=
  consumers_signal _ _

theorem Awake.add (h : m.Awake) (x : α) : (m.add x).1.Awake := by
  have hd := m.queue.shuttingDown_add x
  unfold Monitor.add
  cases hx : m.queue.home x with
  | none =>
    obtain ⟨⟨hq, hs⟩, -⟩ := m.queue.rejects hx
    simpa [hq, hs, signal] using h
  | some t =>
    simp only [h.sound.signal_add hx]
    exact h.signalled (h.sound.add x) hd (h.sound.size_add x) _

theorem Awake.done (h : m.Awake) (x : α) : (m.done x).1.Awake := by
  have hd := m.queue.shuttingDown_done x
  unfold Monitor.done
  cases h.sound.size_done x with
  | inl h =>
    obtain ⟨hsize, hs⟩ := h
    simp only [hs, signal]
    exact h.quiet (h.sound.done x) hd (by omega)
  | inr h =>
    obtain ⟨hsize, hs⟩ := h
    simp only [hs]
    exact h.signalled (h.sound.done x) hd (by omega) _

/-- A consumer that asks takes an item, or leaves everything as it is, or finds that nothing is
waiting and waits itself. -/
theorem ask_cases (hs : m.queue.Sound) :
    (∃ x, m.ask.1 = .item x ∧ m.ask.2.1 = { m with queue := m.queue.get.2.1 } ∧
        m.queue.get.2.1.size + 1 = m.queue.size) ∨
      (m.ask.1 = .closed ∧ m.ask.2.1 = m ∧ m.queue.shuttingDown = true) ∨
      (m.ask.1 = .blocked ∧ m.ask.2.1 = { m with waiting := m.waiting + 1 } ∧
        m.queue.shuttingDown = false ∧ m.queue.size = 0) := by
  rw [ask_fst]
  cases hg : m.queue.get.1 with
  | item x => exact .inl ⟨x, rfl, ask_answered (by simp [hg]), hs.size_get hg⟩
  | closed =>
    have hself := hs.get_eq_self (by simp [hg])
    have ha := ask_answered (m := m) (by simp [hg])
    exact .inr (.inl ⟨rfl, by rw [ha, hself], hs.get_closed hg⟩)
  | blocked =>
    have hself := hs.get_eq_self (by simp [hg])
    have ha := ask_blocked hg
    exact .inr (.inr ⟨rfl, by rw [ha, hself], hs.get_blocked hg⟩)

theorem Awake.ask (h : m.Awake) : m.ask.2.1.Awake := by
  have hd := m.queue.shuttingDown_get
  rcases ask_cases h.sound with ⟨x, -, ha, hsize⟩ | ⟨-, ha, -⟩ | ⟨-, ha, hopen, hsize⟩
  · rw [ha]
    exact h.quiet h.sound.get hd (by omega)
  · rwa [ha]
  · rw [ha]
    refine ⟨h.sound, fun _ _ => ?_, fun hc => ?_⟩
    · simp only
      omega
    · simp [hopen] at hc

/-- A consumer that was notified gives up the signal, but either takes an item or finds none. -/
theorem Awake.askAgain (h : m.Awake) : m.askAgain.2.1.Awake := by
  have hd := m.queue.shuttingDown_get
  have hs : ({ m with notified := m.notified - 1 } : Monitor α).queue.Sound := h.sound
  unfold Monitor.askAgain
  rcases ask_cases hs with ⟨x, -, ha, hsize⟩ | ⟨-, ha, hc⟩ | ⟨-, ha, hopen, hsize⟩
  · rw [ha]
    refine ⟨h.sound.get, fun ho hw => ?_, fun hc => h.released (hd.symm.trans hc)⟩
    have := h.covered (hd ▸ ho) hw
    simp only at *
    omega
  · rw [ha]
    refine ⟨h.sound, fun ho _ => ?_, h.released⟩
    simp only at ho hc
    simp [hc] at ho
  · rw [ha]
    simp only at hopen hsize
    refine ⟨h.sound, fun _ _ => ?_, fun hc => ?_⟩
    · simp only
      omega
    · simp [hopen] at hc

def step (m : Monitor α) : Action α → Monitor α
  | .add x => (m.add x).1
  | .done x => (m.done x).1
  | .ask => m.ask.2.1
  | .wake => if m.notified = 0 then m else m.askAgain.2.1
  | .deliver => m.deliver
  | .shutDown => m.shutDown.1

def run (actions : List (Action α)) (m : Monitor α) : Monitor α := actions.foldl step m

def act (m : Monitor α) : Action α → Option (Taken α) × Monitor α × Effects
  | .add x => (none, m.add x)
  | .done x => (none, m.done x)
  | .ask => (some m.ask.1, m.ask.2)
  | .wake => if m.notified = 0 then (none, m, {}) else (some m.askAgain.1, m.askAgain.2)
  | .deliver => (none, m.deliver, {})
  | .shutDown => (none, m.shutDown)

theorem act_step (m : Monitor α) (action : Action α) : (m.act action).2.1 = m.step action := by
  cases action with
  | wake =>
    simp only [act, step]
    split <;> rfl
  | _ => rfl

theorem run_append (actions actions' : List (Action α)) (m : Monitor α) :
    m.run (actions ++ actions') = (m.run actions).run actions' := List.foldl_append

theorem Awake.step (h : m.Awake) (action : Action α) : (m.step action).Awake := by
  cases action with
  | add x => exact h.add x
  | done x => exact h.done x
  | ask => exact h.ask
  | wake =>
    simp only [Monitor.step]
    split
    · exact h
    · exact h.askAgain
  | deliver => exact h.deliver
  | shutDown => exact h.shutDown

theorem Awake.run (h : m.Awake) (actions : List (Action α)) : (m.run actions).Awake := by
  induction actions generalizing m with
  | nil => exact h
  | cons action actions ih => exact ih (h.step action)

theorem shuttingDown_step (m : Monitor α) (action : Action α) :
    (m.step action).queue.shuttingDown = true ↔
      action = .shutDown ∨ m.queue.shuttingDown = true := by
  cases action with
  | add x => simp [Monitor.step, queue_add, WorkQueue.shuttingDown_add]
  | done x => simp [Monitor.step, queue_done, WorkQueue.shuttingDown_done]
  | ask => simp [Monitor.step, queue_ask, WorkQueue.shuttingDown_get]
  | wake =>
    simp only [Monitor.step]
    split <;> simp [askAgain, queue_ask, WorkQueue.shuttingDown_get]
  | deliver => simp [Monitor.step, queue_deliver]
  | shutDown => simp [Monitor.step, shutDown_eq, WorkQueue.shuttingDown_shutDown]

theorem shuttingDown_run (actions : List (Action α)) (m : Monitor α) :
    (m.run actions).queue.shuttingDown = true ↔
      .shutDown ∈ actions ∨ m.queue.shuttingDown = true := by
  induction actions generalizing m with
  | nil => simp [run]
  | cons action actions ih =>
    have h := ih (m.step action)
    rw [shuttingDown_step] at h
    rw [List.mem_cons, or_assoc, or_left_comm, @eq_comm _ Action.shutDown]
    exact h

/-- Whatever producers and consumers do at the same time, a consumer that has got no signal waits
only while each waiting item is covered by another that was notified, or by a signal on its way.
Nobody waits after the queue was shut down, so that a consumer is left waiting, once everything has
come to rest, only at an empty queue that is open. -/
theorem no_lost_wakeup (flavour : Flavour) (name : Option String) (actions : List (Action α)) :
    let m : Monitor α := Monitor.run actions { queue := .empty flavour name }
    (m.queue.shuttingDown = false → 0 < m.waiting → m.queue.size ≤ m.notified + m.owed) ∧
      (.shutDown ∈ actions → m.queue.shuttingDown = true ∧ m.waiting = 0) ∧
      (m.notified = 0 → m.owed = 0 → 0 < m.waiting →
        m.queue.size = 0 ∧ m.queue.shuttingDown = false) := by
  intro m
  have h : m.Awake := (awake_start flavour name).run actions
  refine ⟨h.covered, fun hd => ?_, fun hn ho hw => ?_⟩
  · have hc : m.queue.shuttingDown = true := (shuttingDown_run actions _).2 (.inl hd)
    exact ⟨hc, h.released hc⟩
  · have hopen : m.queue.shuttingDown = false := by
      by_contra hc
      have := h.released (by simpa using hc)
      omega
    have := h.covered hopen hw
    exact ⟨by omega, hopen⟩

end Calls

end Law

end Monitor

end TenantQueue.Queue
