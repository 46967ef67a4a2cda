import TenantQueue.Proofs.LoadTest.Steps

/-! The workers of a round and the queue agree: as many workers are parked as consumers wait in the
queue, an item is being processed while one worker holds it, and no worker ends before the queue is
shutting down. -/
namespace TenantQueue.LoadTest
open Queue Telemetry

def Worker.holds (key : String) : Worker → Bool
  | .working k _ => k == key
  | _ => false

def Worker.isParked (w : Worker) : Bool := w == .parked

namespace Round
variable {r r' : Round} {i : Nat} {w : Worker} {m : Monitor String} {taken : List String}

theorem countP_become (P : Worker → Bool) (hw : r.workers[i]? = some w) (w' : Worker) :
    (r.workers.set i w').countP P + (if P w then 1 else 0) =
      r.workers.countP P + if P w' then 1 else 0 :=
  countP_set_add P hw w'

theorem Asks.queue_eq (ha : r.Asks i m) : m.queue = r.monitor.queue := by cases ha <;> rfl

theorem Asks.countP_become (ha : r.Asks i m) {P : Worker → Bool} (h₁ : P .asking = false)
    (h₂ : P .parked = false) (w' : Worker) :
    (r.workers.set i w').countP P = r.workers.countP P + if P w' then 1 else 0 := by
  cases ha with
  | anew hw => simpa [h₁] using Round.countP_become P hw w'
  | again hw hn => simpa [h₂] using Round.countP_become P hw w'

theorem Step.awake (h : r.Step taken r') (ha : r.monitor.Awake) : r'.monitor.Awake := by
  have hask {i : Nat} {m : Monitor String} (hm : r.Asks i m) : m.ask.2.1.Awake := by
    cases hm with
    | anew => exact ha.ask
    | again => exact ha.askAgain
  cases h with
  | delivers => exact ha.deliver
  | adds => exact ha.add _
  | takes _ hm => exact hask hm
  | parks hm => exact hask hm
  | leaves hm => exact hask hm
  | returns => exact ha.done _
  | renews => exact ha.add _
  | closes => exact ha.shutDown
  | _ => exact ha

def Parked (r : Round) : Prop := r.workers.countP Worker.isParked = r.monitor.consumers

theorem Asks.parked (ha : r.Asks i m) (hp : r.Parked) {w' : Worker}
    (hw' : w'.isParked = true ↔ m.queue.get.1 = .blocked) :
    (r.workers.set i w').countP Worker.isParked = m.ask.2.1.consumers := by
  have hone : (if w'.isParked = true then 1 else 0) = if m.queue.get.1 = .blocked then 1 else 0 :=
    if_congr hw' rfl rfl
  rw [Monitor.consumers_ask, ← hone]
  cases ha with
  | anew hw =>
    have hset := Round.countP_become Worker.isParked hw w'
    rwa [hp, if_neg (show ¬ Worker.isParked .asking = true by decide), Nat.add_zero] at hset
  | again hw hn =>
    have hset := Round.countP_become Worker.isParked hw w'
    rw [hp, if_pos (show Worker.isParked .parked = true by decide)] at hset
    simp only [Monitor.consumers] at hset ⊢
    omega

theorem Step.parked (h : r.Step taken r') (hp : r.Parked) : r'.Parked := by
  have hsame {i : Nat} {w w' : Worker} (hw : r.workers[i]? = some w) (h₁ : w.isParked = false)
      (h₂ : w'.isParked = false) :
      (r.workers.set i w').countP Worker.isParked = r.monitor.consumers := by
    have := countP_become Worker.isParked hw w'
    simpa [h₁, h₂, hp.symm] using this
  cases h with
  | rests => exact hp
  | delivers => exact hp.trans (Monitor.consumers_deliver _).symm
  | adds => exact hp.trans (Monitor.consumers_add _ _).symm
  | takes _ ha hg => exact ha.parked hp (by simp [hg, Worker.isParked])
  | parks ha hg => exact ha.parked hp (by simp [hg, Worker.isParked])
  | leaves ha hg => exact ha.parked hp (by simp [hg, Worker.isParked])
  | returns hw => exact (hsame hw rfl rfl).trans (Monitor.consumers_done _ _).symm
  | finds hw => exact hsame hw rfl rfl
  | repeats hw => exact hsame hw rfl rfl
  | completes hw => exact hsame hw rfl rfl
  | renews hw => exact (hsame hw rfl rfl).trans (Monitor.consumers_add _ _).symm
  | closes hw => exact (hsame hw rfl rfl).trans (Monitor.consumers_shutDown _).symm

def Held (r : Round) : Prop :=
  ∀ key, r.workers.countP (Worker.holds key) =
    if r.monitor.queue.IsProcessing key then 1 else 0

theorem Step.held (h : r.Step taken r') (hs : r.monitor.queue.Sound) (hh : r.Held) : r'.Held := by
  have hsame {i : Nat} {w w' : Worker} (hw : r.workers[i]? = some w)
      (h₁ : ∀ key, w.holds key = false) (h₂ : ∀ key, w'.holds key = false) (key : String) :
      (r.workers.set i w').countP (Worker.holds key) = r.workers.countP (Worker.holds key) := by
    have hset := countP_become (Worker.holds key) hw w'
    simpa [h₁, h₂] using hset
  have hself {i : Nat} {m : Monitor String} (ha : r.Asks i m) (hg : ∀ x, m.queue.get.1 ≠ .item x)
      {w' : Worker} (hw' : ∀ key, w'.holds key = false) (key : String) :
      (r.workers.set i w').countP (Worker.holds key) =
        if m.ask.2.1.queue.IsProcessing key then 1 else 0 := by
    rw [Monitor.queue_ask]
    rw [ha.queue_eq] at hg ⊢
    rw [hs.get_eq_self hg, ha.countP_become rfl rfl, hw', hh key]
    rfl
  cases h with
  | rests => exact hh
  | delivers =>
    intro key
    simp only [Monitor.queue_deliver]
    exact hh key
  | adds =>
    intro key
    simp only [Monitor.queue_add, hs.isProcessing_add]
    exact hh key
  | @takes i m key deadline ha hg =>
    intro k
    rw [ha.queue_eq] at hg
    have hnot := (hs.waiting_of_get hg).2
    simp only [become, Monitor.queue_ask, ha.queue_eq, hs.isProcessing_get hg,
      ha.countP_become (P := Worker.holds k) rfl rfl, Worker.holds, beq_iff_eq, hh k]
    by_cases hk : k = key
    · subst hk
      simp [hnot]
    · simp [hk, Ne.symm hk]
  | parks ha hg => exact hself ha (by simp [hg]) fun _ => rfl
  | leaves ha hg => exact hself ha (by simp [hg]) fun _ => rfl
  | @returns i key deadline hw =>
    intro k
    have hset := countP_become (Worker.holds k) hw (.counting key)
    simp only [become, Monitor.queue_done, hs.isProcessing_done, Worker.holds, beq_iff_eq, hh k]
      at hset ⊢
    by_cases hk : k = key
    · subst hk
      have hle : (if r.monitor.queue.IsProcessing k then 1 else 0) ≤ 1 := by split <;> omega
      simp only [if_true, Bool.false_eq_true, if_false, ne_eq, not_true, false_and] at hset ⊢
      omega
    · simpa [hk, Ne.symm hk] using hset
  | finds hw => exact fun key => (hsame hw (fun _ => rfl) (fun _ => rfl) key).trans (hh key)
  | repeats hw => exact fun key => (hsame hw (fun _ => rfl) (fun _ => rfl) key).trans (hh key)
  | completes hw => exact fun key => (hsame hw (fun _ => rfl) (fun _ => rfl) key).trans (hh key)
  | renews hw =>
    intro key
    simp only [become, record, Monitor.queue_add, hs.isProcessing_add]
    exact (hsame hw (fun _ => rfl) (fun _ => rfl) key).trans (hh key)
  | closes hw =>
    intro key
    simp only [become, record, shutDown, Monitor.shutDown_eq, WorkQueue.isProcessing_shutDown]
    exact (hsame hw (fun _ => rfl) (fun _ => rfl) key).trans (hh key)

/-- A step makes a call on the queue, or none; only a worker that has to close the queue shuts it
down. -/
theorem Step.queue_cases (h : r.Step taken r') :
    (∃ calls : List (Call String), .shutDown ∉ calls ∧
        r'.monitor.queue = r.monitor.queue.run calls) ∨
      (∃ (i : Nat) (key : String), r.workers[i]? = some (.closing key)) ∧
        r'.monitor.queue = r.monitor.queue.shutDown.1 := by
  have hask {i : Nat} {m : Monitor String} (ha : r.Asks i m) :
      m.ask.2.1.queue = r.monitor.queue.run [.get] := by
    rw [Monitor.queue_ask, ha.queue_eq]
    rfl
  cases h with
  | rests => exact .inl ⟨[], List.not_mem_nil, rfl⟩
  | delivers => exact .inl ⟨[], List.not_mem_nil, Monitor.queue_deliver _⟩
  | adds => exact .inl ⟨[.add _], by simp, Monitor.queue_add _ _⟩
  | takes _ ha => exact .inl ⟨[.get], by simp, hask ha⟩
  | parks ha => exact .inl ⟨[.get], by simp, hask ha⟩
  | leaves ha => exact .inl ⟨[.get], by simp, hask ha⟩
  | returns => exact .inl ⟨[.done _], by simp, Monitor.queue_done _ _⟩
  | finds => exact .inl ⟨[], List.not_mem_nil, rfl⟩
  | repeats => exact .inl ⟨[], List.not_mem_nil, rfl⟩
  | completes => exact .inl ⟨[], List.not_mem_nil, rfl⟩
  | renews => exact .inl ⟨[.add _], by simp, Monitor.queue_add _ _⟩
  | closes hw => exact .inr ⟨⟨_, _, hw⟩, congrArg Monitor.queue (Monitor.shutDown_eq _)⟩

theorem Step.home_eq (h : r.Step taken r') : r'.monitor.queue.home = r.monitor.queue.home := by
  cases h.queue_cases with
  | inl hq =>
    obtain ⟨calls, -, hq⟩ := hq
    rw [hq, WorkQueue.home_run]
  | inr hq => rw [hq.2, WorkQueue.home_shutDown]

/-- Nothing opens a queue again. -/
theorem Step.shuttingDown (h : r.Step taken r') (hd : r.monitor.queue.shuttingDown = true) :
    r'.monitor.queue.shuttingDown = true := by
  cases h.queue_cases with
  | inl hq =>
    obtain ⟨calls, hn, hq⟩ := hq
    rw [hq, WorkQueue.shuttingDown_run hn, hd]
  | inr hq => rw [hq.2, WorkQueue.shuttingDown_shutDown]

/-- The worker whose turn it is goes on. It ends, or has closed the queue, only if the queue is
shutting down, and is to close the queue only if every item is finished. -/
structure Passes (r r' : Round) (i : Nat) (w w' : Worker) : Prop where
  was : r.workers[i]? = some w
  set : r'.workers = r.workers.set i w'
  ended : w' = .ended → r'.monitor.queue.shuttingDown = true
  closed (key : String) : w = .closing key → r'.monitor.queue.shuttingDown = true
  closing (key : String) : w' = .closing key → r'.finished = true

/-- A step is one of at most one worker. -/
theorem Step.workers_cases (h : r.Step taken r') (hs : r.monitor.queue.Sound) :
    r'.workers = r.workers ∨ ∃ i w w', r.Passes r' i w w' := by
  have hask {i : Nat} {m : Monitor String} {w' : Worker} (ha : r.Asks i m)
      (hended : w' = .ended → m.ask.2.1.queue.shuttingDown = true)
      (hclosing : ∀ key, w' ≠ .closing key) :
      ∃ i' w w'', r.Passes ({ r with monitor := m.ask.2.1 }.become i w') i' w w'' := by
    cases ha with
    | anew hw =>
      exact ⟨i, .asking, w', hw, rfl, hended, by simp, fun key h => absurd h (hclosing key)⟩
    | again hw =>
      exact ⟨i, .parked, w', hw, rfl, hended, by simp, fun key h => absurd h (hclosing key)⟩
  cases h with
  | rests => exact .inl rfl
  | delivers => exact .inl rfl
  | adds => exact .inl rfl
  | takes _ ha => exact .inr (hask ha (by simp) (by simp))
  | parks ha => exact .inr (hask ha (by simp) (by simp))
  | leaves ha hg =>
    refine .inr (hask ha (fun _ => ?_) (by simp))
    rw [ha.queue_eq] at hg
    rw [Monitor.queue_ask, WorkQueue.shuttingDown_get, ha.queue_eq]
    exact hs.get_closed hg
  | returns hw => exact .inr ⟨_, _, _, hw, rfl, by simp, by simp, by simp⟩
  | finds hw hf => exact .inr ⟨_, _, _, hw, rfl, by simp, by simp, fun _ _ => hf⟩
  | repeats hw => exact .inr ⟨_, _, _, hw, rfl, by simp, by simp, by simp⟩
  | completes hw => exact .inr ⟨_, _, _, hw, rfl, by simp, by simp, by simp⟩
  | renews hw => exact .inr ⟨_, _, _, hw, rfl, by simp, by simp, by simp⟩
  | closes hw =>
    have hd : r.monitor.shutDown.1.queue.shuttingDown = true := by
      rw [Monitor.shutDown_eq]
      exact WorkQueue.shuttingDown_shutDown _
    exact .inr ⟨_, _, _, hw, rfl, fun _ => hd, fun _ _ => hd, by simp⟩

theorem Step.ended (h : r.Step taken r') (hs : r.monitor.queue.Sound)
    (he : .ended ∈ r.workers → r.monitor.queue.shuttingDown = true) (hm : .ended ∈ r'.workers) :
    r'.monitor.queue.shuttingDown = true := by
  cases h.workers_cases hs with
  | inl hw => exact h.shuttingDown (he (hw ▸ hm))
  | inr hp =>
    obtain ⟨i, w, w', hp⟩ := hp
    rw [hp.set] at hm
    cases List.mem_or_eq_of_mem_set hm with
    | inl hm => exact h.shuttingDown (he hm)
    | inr hm => exact hp.ended hm.symm

theorem Step.workers_ne_nil (h : r.Step taken r') (hs : r.monitor.queue.Sound)
    (hne : r.workers ≠ []) : r'.workers ≠ [] := by
  cases h.workers_cases hs with
  | inl hw => rwa [hw]
  | inr hp =>
    obtain ⟨i, w, w', hp⟩ := hp
    rw [hp.set]
    simpa using hne

structure Staffed (r : Round) : Prop where
  awake : r.monitor.Awake
  parked : r.Parked
  held : r.Held
  ended : .ended ∈ r.workers → r.monitor.queue.shuttingDown = true
  workers_ne_nil : r.workers ≠ []

theorem Step.staffed (h : r.Step taken r') (hs : r.Staffed) : r'.Staffed where
  awake := h.awake hs.awake
  parked := h.parked hs.parked
  held := h.held hs.awake.sound hs.held
  ended := h.ended hs.awake.sound hs.ended
  workers_ne_nil := h.workers_ne_nil hs.awake.sound hs.workers_ne_nil

theorem staffed_start {queue : WorkQueue String} (hs : queue.Sound)
    (hnone : ∀ key, ¬ queue.IsProcessing key) (profile : Profile) (cycles workers : Nat) :
    (start queue profile cycles workers).Staffed where
  awake := ⟨hs, fun _ hw => absurd hw (Nat.lt_irrefl 0), fun _ => rfl⟩
  parked := List.countP_replicate.trans (if_neg (by decide))
  held key := by simp [start, List.countP_replicate, Worker.holds, hnone key]
  ended hm := by simp [start] at hm
  workers_ne_nil := by
    rw [start, ne_eq, List.replicate_eq_nil_iff]
    omega

/-- A worker is left parked, with no signal for anyone, only at an empty queue that is open. -/
theorem Staffed.asleep (hs : r.Staffed) (hn : r.monitor.notified = 0) (ho : r.monitor.owed = 0)
    (hp : .parked ∈ r.workers) :
    r.monitor.queue.shuttingDown = false ∧ r.monitor.queue.size = 0 := by
  have hw : 0 < r.monitor.waiting := by
    have hpos : 0 < r.workers.countP Worker.isParked :=
      List.countP_pos_iff.2 ⟨.parked, hp, by decide⟩
    have hc := hs.parked
    simp only [Parked, Monitor.consumers] at hc
    omega
  have hopen : r.monitor.queue.shuttingDown = false := by
    by_contra hd
    have := hs.awake.released (by simpa using hd)
    omega
  have := hs.awake.covered hopen hw
  exact ⟨hopen, by omega⟩

theorem isOver_iff : r.isOver = true ↔ r.unadded = [] ∧ ∀ w ∈ r.workers, w = .ended := by
  simp [isOver]

theorem countP_of_isOver (ho : r.isOver = true) {P : Worker → Bool} (hP : P .ended = false) :
    r.workers.countP P = 0 := by
  refine List.countP_eq_zero.2 fun w hw => ?_
  rw [(isOver_iff.1 ho).2 w hw, hP]
  exact Bool.false_ne_true

theorem Staffed.shuttingDown_of_isOver (hs : r.Staffed) (ho : r.isOver = true) :
    r.monitor.queue.shuttingDown = true := by
  obtain ⟨w, hw⟩ := List.exists_mem_of_ne_nil _ hs.workers_ne_nil
  exact hs.ended ((isOver_iff.1 ho).2 w hw ▸ hw)

theorem Staffed.not_processing_of_isOver (hs : r.Staffed) (ho : r.isOver = true) (key : String) :
    ¬ r.monitor.queue.IsProcessing key := by
  intro hproc
  have hheld := hs.held key
  rw [countP_of_isOver ho rfl, if_pos hproc] at hheld
  exact Nat.zero_ne_one hheld

end Round

end TenantQueue.LoadTest
