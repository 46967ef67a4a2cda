import TenantQueue.Proofs.Crew.Steps

/-! The consumers of a crew and its queue agree: an item is being processed while one consumer holds
it, and as many consumers are parked as wait in the queue. So no item is ever held twice, and where
everybody is parked nothing is left. -/
namespace TenantQueue.Queue
variable {α : Type}

namespace Consumer
variable [DecidableEq α]

def holds (x : α) (w : Consumer α) : Bool := w.held? == some x

def isParked (w : Consumer α) : Bool := w == .parked

theorem holds_holding (x y : α) : holds x (.holding y) = true ↔ y = x := by
  simp [holds, held?]

theorem holds_returning (x y : α) : holds x (.returning y) = true ↔ y = x := by
  simp [holds, held?]

end Consumer

namespace Crew
variable {c c' : Crew α} {i : Nat} {m : Monitor α} {x : α}

theorem Asks.queue_eq (ha : c.Asks i m) : m.queue = c.monitor.queue := by cases ha <;> rfl

theorem Asks.countP_set (ha : c.Asks i m) {P : Consumer α → Bool} (h₁ : P .asking = false)
    (h₂ : P .parked = false) (w' : Consumer α) :
    (c.consumers.set i w').countP P = c.consumers.countP P + if P w' then 1 else 0 := by
  cases ha with
  | anew hw => simpa [h₁] using countP_set_add P hw w'
  | again hw hn => simpa [h₂] using countP_set_add P hw w'

/-- The producers have finished, every consumer waits, and no signal is on its way. -/
structure AtRest (c : Crew α) : Prop where
  added : c.producers.flatten = []
  parked : ∀ w ∈ c.consumers, w = .parked
  notified : c.monitor.notified = 0
  owed : c.monitor.owed = 0

theorem AtRest.countP_eq_zero (h : c.AtRest) {P : Consumer α → Bool} (hP : P .parked = false) :
    c.consumers.countP P = 0 := by
  refine List.countP_eq_zero.2 fun w hw => ?_
  rw [h.parked w hw, hP]
  exact Bool.false_ne_true

variable [DecidableEq α]

theorem count_held (c : Crew α) (x : α) :
    c.held.count x = c.consumers.countP (Consumer.holds x) := List.count_filterMap

def Parked (c : Crew α) : Prop := c.consumers.countP Consumer.isParked = c.monitor.consumers

theorem Asks.parked (ha : c.Asks i m) (hp : c.Parked) {w' : Consumer α}
    (hw' : w'.isParked = true ↔ m.queue.get.1 = .blocked) :
    (c.consumers.set i w').countP Consumer.isParked = m.ask.2.1.consumers := by
  have hone : (if w'.isParked = true then 1 else 0) = if m.queue.get.1 = .blocked then 1 else 0 :=
    if_congr hw' rfl rfl
  rw [Monitor.consumers_ask, ← hone]
  cases ha with
  | anew hw =>
    have hset := countP_set_add Consumer.isParked hw w'
    rwa [hp, if_neg (by simp [Consumer.isParked]), Nat.add_zero] at hset
  | again hw hn =>
    have hset := countP_set_add Consumer.isParked hw w'
    rw [hp, if_pos (by simp [Consumer.isParked])] at hset
    simp only [Monitor.consumers] at hset ⊢
    omega

def Held (c : Crew α) : Prop :=
  ∀ x, c.consumers.countP (Consumer.holds x) = if c.monitor.queue.IsProcessing x then 1 else 0

theorem Held.nodup (h : c.Held) : c.held.Nodup := by
  rw [List.nodup_iff_count_le_one]
  intro x
  rw [count_held, h x]
  split <;> omega

theorem Held.isProcessing (h : c.Held) (hx : x ∈ c.held) : c.monitor.queue.IsProcessing x := by
  have hpos := List.count_pos_iff.2 hx
  rw [count_held, h x] at hpos
  by_contra hp
  rw [if_neg hp] at hpos
  exact Nat.lt_irrefl 0 hpos

variable [WorkItem α]

theorem Step.awake (h : c.Step c') (ha : c.monitor.Awake) : c'.monitor.Awake := by
  have hask {i : Nat} {m : Monitor α} (hm : c.Asks i m) : m.ask.2.1.Awake := by
    cases hm with
    | anew => exact ha.ask
    | again => exact ha.askAgain
  cases h with
  | adds => exact ha.add _
  | delivers => exact ha.deliver
  | takes hm => exact hask hm
  | parks hm => exact hask hm
  | leaves hm => exact hask hm
  | readds => exact ha.add _
  | keeps => exact ha
  | returns => exact ha.done _

/-- A step makes a call on the queue, or none, and never shuts it down. -/
theorem Step.queue_run (h : c.Step c') : ∃ calls : List (Call α), .shutDown ∉ calls ∧
    c'.monitor.queue = c.monitor.queue.run calls := by
  have hask {i : Nat} {m : Monitor α} (ha : c.Asks i m) :
      m.ask.2.1.queue = c.monitor.queue.run [.get] := by
    rw [Monitor.queue_ask, ha.queue_eq]
    rfl
  cases h with
  | adds => exact ⟨[.add _], by simp, Monitor.queue_add _ _⟩
  | delivers => exact ⟨[], List.not_mem_nil, Monitor.queue_deliver _⟩
  | takes ha => exact ⟨[.get], by simp, hask ha⟩
  | parks ha => exact ⟨[.get], by simp, hask ha⟩
  | leaves ha => exact ⟨[.get], by simp, hask ha⟩
  | readds => exact ⟨[.add _], by simp, Monitor.queue_add _ _⟩
  | keeps => exact ⟨[], List.not_mem_nil, rfl⟩
  | returns => exact ⟨[.done _], by simp, Monitor.queue_done _ _⟩

theorem Step.home_eq (h : c.Step c') : c'.monitor.queue.home = c.monitor.queue.home := by
  obtain ⟨calls, -, hq⟩ := h.queue_run
  rw [hq, WorkQueue.home_run]

theorem Step.shuttingDown_eq (h : c.Step c') :
    c'.monitor.queue.shuttingDown = c.monitor.queue.shuttingDown := by
  obtain ⟨calls, hn, hq⟩ := h.queue_run
  rw [hq, WorkQueue.shuttingDown_run hn]

theorem Step.parked (h : c.Step c') (hp : c.Parked) : c'.Parked := by
  have hsame {i : Nat} {w w' : Consumer α} (hw : c.consumers[i]? = some w)
      (h₁ : w.isParked = false) (h₂ : w'.isParked = false) :
      (c.consumers.set i w').countP Consumer.isParked = c.monitor.consumers := by
    have := countP_set_add Consumer.isParked hw w'
    simpa [h₁, h₂, hp.symm] using this
  cases h with
  | adds => exact hp.trans (Monitor.consumers_add _ _).symm
  | delivers => exact hp.trans (Monitor.consumers_deliver _).symm
  | takes ha hg => exact ha.parked hp (by simp [hg, Consumer.isParked])
  | parks ha hg => exact ha.parked hp (by simp [hg, Consumer.isParked])
  | leaves ha hg => exact ha.parked hp (by simp [hg, Consumer.isParked])
  | readds hw => exact (hsame hw rfl rfl).trans (Monitor.consumers_add _ _).symm
  | keeps hw => exact hsame hw rfl rfl
  | returns hw => exact (hsame hw rfl rfl).trans (Monitor.consumers_done _ _).symm

theorem Step.held (h : c.Step c') (hs : c.monitor.queue.Sound) (hh : c.Held) : c'.Held := by
  have hvain {i : Nat} {m : Monitor α} (ha : c.Asks i m) (hg : ∀ y, m.queue.get.1 ≠ .item y)
      {w' : Consumer α} (hw' : ∀ y, w'.holds y = false) (x : α) :
      (c.consumers.set i w').countP (Consumer.holds x) =
        if m.ask.2.1.queue.IsProcessing x then 1 else 0 := by
    rw [Monitor.queue_ask]
    rw [ha.queue_eq] at hg ⊢
    rw [hs.get_eq_self hg, ha.countP_set rfl rfl, hw', hh x]
    rfl
  have hsame {i : Nat} {x : α} (hw : c.consumers[i]? = some (.holding x)) (y : α) :
      (c.consumers.set i (.returning x)).countP (Consumer.holds y) =
        c.consumers.countP (Consumer.holds y) := by
    have hset := countP_set_add (Consumer.holds y) hw (.returning x)
    simp only [Consumer.holds_holding, Consumer.holds_returning] at hset
    omega
  cases h with
  | adds =>
    intro y
    simp only [Monitor.queue_add, hs.isProcessing_add]
    exact hh y
  | delivers =>
    intro y
    simp only [Monitor.queue_deliver]
    exact hh y
  | @takes i m x ha hg =>
    intro y
    rw [ha.queue_eq] at hg
    have hnot := (hs.waiting_of_get hg).2
    simp only [become, Monitor.queue_ask, ha.queue_eq, hs.isProcessing_get hg,
      ha.countP_set (P := Consumer.holds y) rfl rfl, Consumer.holds_holding, hh y]
    by_cases hy : x = y
    · subst hy
      simp [hnot]
    · simp [hy, Ne.symm hy]
  | parks ha hg => exact hvain ha (by simp [hg]) fun _ => rfl
  | leaves ha hg => exact hvain ha (by simp [hg]) fun _ => rfl
  | readds hw =>
    intro y
    simp only [become, Monitor.queue_add, hs.isProcessing_add]
    exact (hsame hw y).trans (hh y)
  | keeps hw => exact fun y => (hsame hw y).trans (hh y)
  | @returns i x hw =>
    intro y
    have hset := countP_set_add (Consumer.holds y) hw .asking
    have hasking : Consumer.holds y .asking = false := rfl
    simp only [Consumer.holds_returning, hasking, hh y] at hset
    simp only [become, Monitor.queue_done, hs.isProcessing_done]
    by_cases hy : x = y
    · subst hy
      have hle : (if c.monitor.queue.IsProcessing x then 1 else 0) ≤ 1 := by split <;> omega
      rw [if_pos rfl, if_neg Bool.false_ne_true] at hset
      rw [if_neg fun h => h.1 rfl]
      omega
    · simpa [hy, Ne.symm hy] using hset

/-- An item that is handed out is held by nobody yet. -/
theorem Step.overlap (h : c.Step c') (hs : c.monitor.queue.Sound) (hh : c.Held)
    (ho : c.overlap = false) : c'.overlap = false := by
  cases h with
  | @takes i m x ha hg =>
    rw [ha.queue_eq] at hg
    have hnot : x ∉ c.held := fun hx => (hs.waiting_of_get hg).2 (hh.isProcessing hx)
    simp [become, ho, hnot]
  | _ => exact ho

theorem Step.length_consumers (h : c.Step c') : c'.consumers.length = c.consumers.length := by
  cases h with
  | adds => rfl
  | delivers => rfl
  | _ => exact List.length_set

structure Manned (c : Crew α) : Prop where
  awake : c.monitor.Awake
  parked : c.Parked
  held : c.Held
  overlap : c.overlap = false
  consumers_ne_nil : c.consumers ≠ []

theorem Step.manned (h : c.Step c') (hm : c.Manned) : c'.Manned where
  awake := h.awake hm.awake
  parked := h.parked hm.parked
  held := h.held hm.awake.sound hm.held
  overlap := h.overlap hm.awake.sound hm.held hm.overlap
  consumers_ne_nil := by
    rw [← List.length_pos_iff, h.length_consumers, List.length_pos_iff]
    exact hm.consumers_ne_nil

theorem Manned.shutDown (hm : c.Manned) :
    ({ c with monitor := c.monitor.shutDown.1 } : Crew α).Manned where
  awake := hm.awake.shutDown
  parked := hm.parked.trans (Monitor.consumers_shutDown _).symm
  held x := by
    simp only [Monitor.shutDown_eq, WorkQueue.isProcessing_shutDown]
    exact hm.held x
  overlap := hm.overlap
  consumers_ne_nil := hm.consumers_ne_nil

theorem manned_start (flavour : Flavour) (name : Option String) (readds : Nat)
    (producers : List (List α)) (consumers : Nat) :
    (start (.empty flavour name) readds producers (consumers + 1)).Manned where
  awake := Monitor.awake_start flavour name
  parked := List.countP_replicate.trans (if_neg (by simp [Consumer.isParked]))
  held x := by
    simp [start, List.countP_replicate, Consumer.holds, Consumer.held?,
      (WorkQueue.not_held_empty flavour name x).2]
  overlap := rfl
  consumers_ne_nil := by simp [start]

/-- Where everybody is parked, the queue is open and holds nothing. -/
theorem Manned.atRest (hm : c.Manned) (h : c.AtRest) :
    c.monitor.queue.shuttingDown = false ∧ c.monitor.queue.size = 0 ∧
      ∀ x, ¬ c.monitor.queue.IsDirty x ∧ ¬ c.monitor.queue.IsProcessing x := by
  have hwaiting : 0 < c.monitor.waiting := by
    obtain ⟨w, hw⟩ := List.exists_mem_of_ne_nil _ hm.consumers_ne_nil
    have hpos : 0 < c.consumers.countP Consumer.isParked :=
      List.countP_pos_iff.2 ⟨w, hw, by simp [h.parked w hw, Consumer.isParked]⟩
    have hparked := hm.parked
    have := h.notified
    simp only [Parked, Monitor.consumers] at hparked
    omega
  have hopen : c.monitor.queue.shuttingDown = false := by
    by_contra hd
    have := hm.awake.released (by simpa using hd)
    omega
  have hsize : c.monitor.queue.size = 0 := by
    have := hm.awake.covered hopen hwaiting
    have := h.notified
    have := h.owed
    omega
  have hfree (x : α) : ¬ c.monitor.queue.IsProcessing x := by
    have hheld := hm.held x
    rw [h.countP_eq_zero rfl] at hheld
    intro hp
    rw [if_pos hp] at hheld
    exact Nat.zero_ne_one hheld
  exact ⟨hopen, hsize, fun x =>
    ⟨fun hd => hm.awake.sound.size_eq_zero.1 hsize x ⟨hd, hfree x⟩, hfree x⟩⟩

end Crew

end TenantQueue.Queue
