import Mathlib.Data.List.Perm.Subperm
import TenantQueue.Proofs.Crew.Turnover

/-! A crew drains its queue, whatever the schedule. Somebody can go on until everything is at rest,
nobody goes on for ever, and what was handed out in the end does not depend on who was faster. -/
namespace TenantQueue.Queue
variable {α : Type}

/-- What is left of a sum when one member of a list becomes another. -/
theorem sum_map_set_add {β : Type} (f : β → Nat) {l : List β} {i : Nat} {w : β}
    (hw : l[i]? = some w) (w' : β) :
    ((l.set i w').map f).sum + f w = (l.map f).sum + f w' := by
  induction l generalizing i with
  | nil => cases hw
  | cons a l ih =>
    cases i with
    | zero =>
      cases hw
      simp only [List.set_cons_zero, List.map_cons, List.sum_cons]
      omega
    | succ i =>
      have := ih (i := i) hw
      simp only [List.set_cons_succ, List.map_cons, List.sum_cons]
      omega

/-- A list is no longer than its members may come in it. -/
theorem length_le_of_count_le_mul [DecidableEq α] {l items : List α} {n : Nat}
    (h : ∀ x, l.count x ≤ n * items.count x) : l.length ≤ n * items.length := by
  have hsub : l.Subperm (List.replicate n items).flatten := by
    refine List.subperm_ext_iff.2 fun x _ => ?_
    simpa [List.count_flatten] using h x
  simpa using hsub.length_le

namespace Monitor

/-- The turns that signals may cause: one to send each, and one of the consumer that it wakes. -/
def pending (m : Monitor α) : Nat := 2 * m.owed + m.notified

theorem pending_notifyOne (m : Monitor α) : m.notifyOne.pending ≤ m.pending + 1 := by
  unfold notifyOne pending
  split
  · omega
  · simp only
    omega

theorem pending_deliver {m : Monitor α} (ho : m.owed ≠ 0) : m.deliver.pending < m.pending := by
  have hle := pending_notifyOne { m with owed := m.owed - 1 }
  rw [deliver, if_neg ho]
  simp only [pending] at hle ⊢
  omega

theorem pending_signal_wake (m : Monitor α) (flavour : Flavour) :
    (m.signal (WorkQueue.wake flavour)).pending ≤ m.pending + 2 := by
  cases flavour with
  | fair =>
    have hle := pending_notifyOne m
    exact Nat.le_trans hle (Nat.le_succ _)
  | fifo =>
    simp only [WorkQueue.wake, signal, pending]
    omega

variable [DecidableEq α]

theorem pending_ask (m : Monitor α) : m.ask.2.1.pending = m.pending := by
  rw [pending, ask_owed, ask_notified, pending]

variable [WorkItem α] {m : Monitor α}

theorem pending_add (hs : m.queue.Sound) (x : α) : (m.add x).1.pending ≤ m.pending + 2 := by
  simp only [add]
  cases hx : m.queue.home x with
  | none =>
    rw [(m.queue.rejects hx).1.2]
    exact Nat.le_add_right _ _
  | some t =>
    rw [hs.signal_add hx]
    exact pending_signal_wake { m with queue := (m.queue.add x).1 } _

theorem pending_done (hs : m.queue.Sound) (x : α) : (m.done x).1.pending ≤ m.pending + 2 := by
  simp only [done]
  cases hs.size_done x with
  | inl h =>
    rw [h.2]
    exact Nat.le_add_right _ _
  | inr h =>
    rw [h.2]
    exact pending_signal_wake { m with queue := (m.queue.done x).1 } _

end Monitor

def Consumer.effort : Consumer α → Nat
  | .asking => 1
  | .parked => 0
  | .holding _ => 7
  | .returning _ => 4
  | .ended => 0

namespace Crew

/-- A bound on the turns that a crew may yet take, while it hands out `limit` items at most. -/
def effort (c : Crew α) (limit : Nat) : Nat :=
  3 * c.producers.flatten.length + 8 * (limit - c.handedOut.length) + c.monitor.pending +
    (c.consumers.map Consumer.effort).sum

/-- The effort of a crew at first is less than its limit of turns. -/
theorem effort_start_le (flavour : Flavour) (name : Option String) (readds : Nat)
    (producers : List (List α)) (consumers : Nat) :
    let c := start (.empty flavour name) readds producers consumers
    c.effort ((readds + 1) * producers.flatten.length) ≤ c.turnLimit := by
  intro c
  have hsum : (c.consumers.map Consumer.effort).sum = consumers := by
    simp [c, start, Consumer.effort]
  have hlength : c.consumers.length = consumers := List.length_replicate
  have hserved : c.handedOut.length = 0 := rfl
  have hadds : c.producers.flatten.length = producers.flatten.length := rfl
  have hpending : c.monitor.pending = 0 := rfl
  have hmul : producers.flatten.length ≤ (readds + 1) * producers.flatten.length :=
    Nat.le_mul_of_pos_left _ (Nat.succ_pos readds)
  have hlimit : (readds + 1) * producers.flatten.length ≤
      (producers.flatten.length + c.monitor.queue.size) * (readds + 1) := by
    rw [Nat.mul_comm, Nat.add_mul]
    exact Nat.le_add_right _ _
  have hreadds : c.readds = readds := rfl
  simp only [effort, turnLimit, hsum, hlength, hserved, hadds, hpending, hreadds]
  omega

structure Working (c : Crew α) : Prop where
  opened : c.monitor.queue.shuttingDown = false
  staying : .ended ∉ c.consumers

theorem working_start (flavour : Flavour) (name : Option String) (readds : Nat)
    (producers : List (List α)) (consumers : Nat) :
    (start (.empty flavour name) readds producers consumers).Working where
  opened := by cases flavour <;> cases name <;> rfl
  staying := by simp [start]

theorem AtRest.next?_eq_none {c : Crew α} (h : c.AtRest) : c.next? = none := by
  have hconsumers : c.consumers.findIdx? c.able = none := by
    refine List.findIdx?_eq_none_iff.2 fun w hw => ?_
    rw [h.parked w hw]
    simp [able, h.notified]
  have hproducers : c.producers.findIdx? (fun items => !items.isEmpty) = none := by
    refine List.findIdx?_eq_none_iff.2 fun items hi => ?_
    simpa using List.flatten_eq_nil_iff.1 h.added items hi
  simp [next?, h.owed, hconsumers, hproducers]

variable [DecidableEq α] {c c' : Crew α} {i : Nat} {m : Monitor α} {limit : Nat}

/-- Whoever asks gives up its signal, or the turn in which it asks first. -/
theorem Asks.effort (ha : c.Asks i m) (w' : Consumer α) :
    m.ask.2.1.pending + ((c.consumers.set i w').map Consumer.effort).sum + 1 =
      c.monitor.pending + (c.consumers.map Consumer.effort).sum + w'.effort := by
  rw [Monitor.pending_ask]
  cases ha with
  | anew hw =>
    have hset := sum_map_set_add Consumer.effort hw w'
    simp only [Consumer.effort] at hset ⊢
    omega
  | again hw hn =>
    have hset := sum_map_set_add Consumer.effort hw w'
    simp only [Consumer.effort, Monitor.pending] at hset ⊢
    omega

variable [WorkItem α]

/-- Every step brings the crew nearer to its rest. -/
theorem Step.effort_lt (h : c.Step c') (hs : c.monitor.queue.Sound)
    (hle : c'.handedOut.length ≤ limit) : c'.effort limit < c.effort limit := by
  cases h with
  | @adds i x rest hp =>
    have hlength := (flatten_set_perm hp).length_eq
    have hpending := Monitor.pending_add hs x
    simp only [effort, List.length_cons] at hlength ⊢
    omega
  | delivers ho =>
    have hpending := Monitor.pending_deliver ho
    simp only [effort]
    omega
  | @takes i m x ha hg =>
    have hask := ha.effort (.holding x)
    simp only [effort, become, List.length_cons, Consumer.effort] at hle hask ⊢
    omega
  | parks ha hg =>
    have hask := ha.effort .parked
    simp only [effort, become, Consumer.effort] at hask ⊢
    omega
  | leaves ha hg =>
    have hask := ha.effort .ended
    simp only [effort, become, Consumer.effort] at hask ⊢
    omega
  | @readds i x hw hr =>
    have hset := sum_map_set_add Consumer.effort hw (.returning x)
    have hpending := Monitor.pending_add hs x
    simp only [effort, become, Consumer.effort] at hset ⊢
    omega
  | @keeps i x hw hr =>
    have hset := sum_map_set_add Consumer.effort hw (.returning x)
    simp only [effort, become, Consumer.effort] at hset ⊢
    omega
  | @returns i x hw =>
    have hset := sum_map_set_add Consumer.effort hw .asking
    have hpending := Monitor.pending_done hs x
    simp only [effort, become, Consumer.effort] at hset ⊢
    omega

theorem Step.working (h : c.Step c') (hs : c.monitor.queue.Sound) (hw : c.Working) :
    c'.Working where
  opened := h.shuttingDown_eq.trans hw.opened
  staying hm := by
    have hset {i : Nat} {w' : Consumer α} (hw' : w' ≠ .ended)
        (hm : .ended ∈ c.consumers.set i w') : False :=
      (List.mem_or_eq_of_mem_set hm).elim hw.staying (Ne.symm hw')
    cases h with
    | adds => exact hw.staying hm
    | delivers => exact hw.staying hm
    | leaves ha hg =>
      rw [ha.queue_eq] at hg
      exact Bool.false_ne_true (hw.opened.symm.trans (hs.get_closed hg))
    | takes => exact hset (by simp) hm
    | parks => exact hset (by simp) hm
    | readds => exact hset (by simp) hm
    | keeps => exact hset (by simp) hm
    | returns => exact hset (by simp) hm

/-- Where no consumer can go on, none was notified, and all of them are parked. -/
theorem Manned.parked_of_unable (hm : c.Manned) (hw : c.Working)
    (hunable : ∀ w ∈ c.consumers, c.able w = false) :
    c.monitor.notified = 0 ∧ ∀ w ∈ c.consumers, w = .parked := by
  constructor
  · by_contra hn
    have hpos : 0 < c.consumers.countP Consumer.isParked := by
      rw [hm.parked, Monitor.consumers]
      omega
    obtain ⟨w, hwm, hp⟩ := List.countP_pos_iff.1 hpos
    have hparked := hunable w hwm
    rw [beq_iff_eq.1 hp] at hparked
    exact hn (by simpa [able] using hparked)
  · intro w hwm
    have hnot := hunable w hwm
    cases w with
    | parked => rfl
    | ended => exact absurd hwm hw.staying
    | _ => cases hnot

/-- Somebody can go on, unless everything is at rest. -/
theorem Manned.next (hm : c.Manned) (hw : c.Working) (hrest : ¬ c.AtRest) :
    ∃ turn, c.next? = some turn ∧ turn ≠ .shutDown ∧ c.Step (c.step turn) := by
  unfold next?
  by_cases howed : c.monitor.owed = 0
  · rw [if_neg (not_not.2 howed)]
    cases hi : c.consumers.findIdx? c.able with
    | some i =>
      obtain ⟨hlt, hable, -⟩ := List.findIdx?_eq_some_iff_getElem.1 hi
      exact ⟨.consumer i, rfl, by simp, step_consumer (List.getElem?_eq_getElem hlt) hable⟩
    | none =>
      obtain ⟨hnotified, hparked⟩ := hm.parked_of_unable hw (List.findIdx?_eq_none_iff.1 hi)
      cases hp : c.producers.findIdx? fun items => !items.isEmpty with
      | some i =>
        obtain ⟨hlt, hsome, -⟩ := List.findIdx?_eq_some_iff_getElem.1 hp
        have hne : c.producers[i] ≠ [] := by simpa using hsome
        obtain ⟨x, rest, hx⟩ := List.exists_cons_of_ne_nil hne
        have hget : c.producers[i]? = some (x :: rest) := by rw [List.getElem?_eq_getElem hlt, hx]
        exact ⟨.producer i, rfl, by simp, step_producer hget⟩
      | none =>
        have hnone := List.findIdx?_eq_none_iff.1 hp
        have hadded : c.producers.flatten = [] :=
          List.flatten_eq_nil_iff.2 fun items hm => by simpa using hnone items hm
        exact absurd ⟨hadded, hparked, hnotified, howed⟩ hrest
  · rw [if_pos howed]
    exact ⟨.signal, rfl, by simp, step_signal howed⟩

def Moving : List CrewTurn → Crew α → Prop
  | [], _ => True
  | turn :: turns, c => c.step turn ≠ c ∧ Moving turns (c.step turn)

structure Reached (flavour : Flavour) (readds : Nat) (planned : List α) (c : Crew α) : Prop where
  manned : c.Manned
  balanced : c.Balanced planned.count
  home_eq : c.monitor.queue.home = flavour.home
  readds_eq : c.readds = readds

variable {flavour : Flavour} {readds : Nat} {planned : List α}

theorem Step.reached (h : c.Step c') (hr : c.Reached flavour readds planned) :
    c'.Reached flavour readds planned :=
  ⟨h.manned hr.manned, h.balanced hr.manned.awake.sound hr.balanced, h.home_eq.trans hr.home_eq,
    h.readds_eq.trans hr.readds_eq⟩

theorem Reached.shutDown (hr : c.Reached flavour readds planned) :
    ({ c with monitor := c.monitor.shutDown.1 } : Crew α).Reached flavour readds planned := by
  refine ⟨hr.manned.shutDown, hr.balanced.shutDown, ?_, hr.readds_eq⟩
  simp only [Monitor.shutDown_eq, WorkQueue.home_shutDown]
  exact hr.home_eq

theorem Reached.run (hr : c.Reached flavour readds planned) (turns : List CrewTurn) :
    (c.run turns).Reached flavour readds planned :=
  run_induction (fun _ _ hr h => h.reached hr) (fun _ hr => hr.shutDown) turns hr

theorem Reached.served_le (hr : c.Reached flavour readds planned) (x : α) :
    c.handedOut.count x ≤ planned.count x + readds := by
  have hle := hr.balanced.served_le x
  have := hr.readds_eq
  unfold served at hle
  omega

theorem Reached.mem_planned (hr : c.Reached flavour readds planned) {x : α}
    (hx : x ∈ c.handedOut) : x ∈ planned ∧ (flavour.home x).isSome := by
  have hpos : 0 < c.served x := List.count_pos_iff.2 hx
  have hadded := hr.balanced.added x (.inr hpos)
  refine ⟨List.count_pos_iff.1 (by omega), ?_⟩
  rw [← hr.home_eq]
  exact hr.balanced.accepted x hpos

/-- In all, each item that is added is handed out so often at most. -/
theorem Reached.length_le (hr : c.Reached flavour readds planned) :
    c.handedOut.length ≤ (readds + 1) * planned.length := by
  refine length_le_of_count_le_mul fun x => ?_
  by_cases hx : x ∈ c.handedOut
  · have hle := hr.served_le x
    have hpos : 1 ≤ planned.count x := List.count_pos_iff.2 (hr.mem_planned hx).1
    have hmul : readds ≤ readds * planned.count x := Nat.le_mul_of_pos_right readds hpos
    rw [Nat.add_mul, Nat.one_mul]
    omega
  · rw [List.count_eq_zero_of_not_mem hx]
    exact Nat.zero_le _

/-- At rest, each item that is accepted was handed out often enough. -/
theorem Reached.of_atRest (hr : c.Reached flavour readds planned) (h : c.AtRest) {x : α}
    (hx : x ∈ planned) (hhome : (flavour.home x).isSome) : readds + 1 ≤ c.handedOut.count x := by
  have hunadded : c.unadded x = 0 := by
    rw [unadded, h.added]
    rfl
  have hpos : 0 < planned.count x := List.count_pos_iff.2 hx
  have hclean := ((hr.manned.atRest h).2.2 x).1
  rw [← hr.home_eq] at hhome
  have hlive := hr.balanced.live x hhome (by omega) hclean (h.countP_eq_zero rfl)
  rwa [hr.readds_eq] at hlive

/-- Turns that somebody takes use up the effort. -/
theorem Reached.length_moving (hr : c.Reached flavour readds planned) {turns : List CrewTurn}
    (hdown : .shutDown ∉ turns) (hmoving : c.Moving turns) :
    turns.length ≤ c.effort ((readds + 1) * planned.length) := by
  induction turns generalizing c with
  | nil => exact Nat.zero_le _
  | cons turn turns ih =>
    rw [List.mem_cons, not_or] at hdown
    obtain ⟨hmoves, hmoving⟩ := hmoving
    rcases step_spec c turn with he | he | hs
    · exact absurd he.symm hdown.1
    · exact absurd he hmoves
    · have hr' := hs.reached hr
      have hless := hs.effort_lt hr.manned.awake.sound hr'.length_le
      have hrest := ih hr' hdown.2 hmoving
      rw [List.length_cons]
      omega

theorem Reached.working_run (hr : c.Reached flavour readds planned) (hw : c.Working)
    {turns : List CrewTurn} (hdown : .shutDown ∉ turns) : (c.run turns).Working := by
  induction turns generalizing c with
  | nil => exact hw
  | cons turn turns ih =>
    rw [List.mem_cons, not_or] at hdown
    rcases step_spec c turn with he | he | hs
    · exact absurd he.symm hdown.1
    · have hrun : c.run (turn :: turns) = c.run turns := congrArg (Crew.run turns) he
      rw [hrun]
      exact ih hr hw hdown.2
    · exact ih (hs.reached hr) (hs.working hr.manned.awake.sound hw) hdown.2

/-- A crew that nobody has shut down can come to rest. -/
theorem Reached.comes_to_rest (hr : c.Reached flavour readds planned) (hw : c.Working) :
    ∃ later, .shutDown ∉ later ∧ (c.run later).AtRest := by
  induction he : c.effort ((readds + 1) * planned.length) using Nat.strongRecOn generalizing c with
  | ind effort ih =>
    by_cases hrest : c.AtRest
    · exact ⟨[], List.not_mem_nil, hrest⟩
    · obtain ⟨turn, -, hturn, hs⟩ := hr.manned.next hw hrest
      have hr' := hs.reached hr
      have hless := hs.effort_lt hr.manned.awake.sound hr'.length_le
      obtain ⟨later, hlater, hdone⟩ :=
        ih _ (he ▸ hless) hr' (hs.working hr.manned.awake.sound hw) rfl
      exact ⟨turn :: later, by simp [hlater, hturn.symm], hdone⟩

theorem reached_start (flavour : Flavour) (name : Option String) (readds : Nat)
    (producers : List (List α)) (consumers : Nat) :
    (start (.empty flavour name) readds producers (consumers + 1)).Reached flavour readds
      producers.flatten where
  manned := manned_start flavour name readds producers consumers
  balanced := balanced_start flavour name readds producers (consumers + 1)
  home_eq := congrArg Flavour.home (WorkQueue.flavour_empty flavour name)
  readds_eq := rfl

/-- A crew comes to rest on its own schedule in as many turns as it has effort left. -/
theorem Reached.workFor_atRest (hr : c.Reached flavour readds planned) (hw : c.Working)
    {fuel : Nat} (hfuel : c.effort ((readds + 1) * planned.length) ≤ fuel) :
    (workFor fuel c).AtRest := by
  induction fuel generalizing c with
  | zero =>
    by_contra hrest
    obtain ⟨turn, -, -, hs⟩ := hr.manned.next hw hrest
    have hless := hs.effort_lt hr.manned.awake.sound (hs.reached hr).length_le
    omega
  | succ fuel ih =>
    unfold workFor
    by_cases hrest : c.AtRest
    · rwa [hrest.next?_eq_none]
    · obtain ⟨turn, hnext, -, hs⟩ := hr.manned.next hw hrest
      have hless := hs.effort_lt hr.manned.awake.sound (hs.reached hr).length_le
      rw [hnext]
      exact ih (hs.reached hr) (hs.working hr.manned.awake.sound hw) (by omega)

/-- However the items are split over producers, however many consumers there are, and whatever the
schedule: no item is ever held twice; an item that is accepted is handed out no more often than it
was added by producers and may be added again, and no other is handed out. Until everything is at
rest somebody can go on, and only so many turns can be taken, so that every schedule comes to rest.
Then nothing is waiting, dirty or checked out, and each item that is accepted was handed out at
least once more than it may be added again. So neither what is handed out nor what is left depends
on the schedule, the crew's own included. -/
theorem drains_whatever_the_schedule (flavour : Flavour) (name : Option String) (readds : Nat)
    (producers : List (List α)) (consumers : Nat) (turns : List CrewTurn) :
    let planned := producers.flatten
    let first : Crew α := start (.empty flavour name) readds producers (consumers + 1)
    let c := first.run turns
    (c.held.Nodup ∧ c.overlap = false) ∧
      (∀ x, c.handedOut.count x ≤ planned.count x + readds) ∧
      (∀ x ∈ c.handedOut, x ∈ planned ∧ (flavour.home x).isSome) ∧
      (.shutDown ∉ turns →
        (¬ c.AtRest → ∃ turn ≠ .shutDown, c.step turn ≠ c) ∧
          (first.Moving turns → turns.length ≤ first.turnLimit) ∧
          ∃ later, .shutDown ∉ later ∧ (c.run later).AtRest) ∧
      (workFor first.turnLimit first).AtRest ∧
      (c.AtRest →
        (c.monitor.queue.size = 0 ∧
            ∀ x, ¬ c.monitor.queue.IsDirty x ∧ ¬ c.monitor.queue.IsProcessing x) ∧
          (∀ x ∈ planned, (flavour.home x).isSome → readds + 1 ≤ c.handedOut.count x) ∧
          ∀ x, x ∈ c.handedOut ↔ x ∈ planned ∧ (flavour.home x).isSome) := by
  intro planned first c
  have hfirst : first.Reached flavour readds planned :=
    reached_start flavour name readds producers consumers
  have hworking : first.Working := working_start flavour name readds producers (consumers + 1)
  have hr : c.Reached flavour readds planned := hfirst.run turns
  have hlimit := effort_start_le (α := α) flavour name readds producers (consumers + 1)
  refine ⟨⟨hr.manned.held.nodup, hr.manned.overlap⟩, hr.served_le, fun x hx => hr.mem_planned hx,
    fun hdown => ⟨fun hrest => ?_, fun hmoving => ?_, ?_⟩, hfirst.workFor_atRest hworking hlimit,
    fun hrest => ⟨?_, ?_, fun x => ?_⟩⟩
  · have hw := hfirst.working_run hworking hdown
    obtain ⟨turn, -, hturn, hs⟩ := hr.manned.next hw hrest
    refine ⟨turn, hturn, fun he => ?_⟩
    have hless := hs.effort_lt hr.manned.awake.sound (hs.reached hr).length_le
    rw [he] at hless
    exact Nat.lt_irrefl _ hless
  · exact Nat.le_trans (hfirst.length_moving hdown hmoving) hlimit
  · exact hr.comes_to_rest (hfirst.working_run hworking hdown)
  · exact (hr.manned.atRest hrest).2
  · exact fun x hx hhome => hr.of_atRest hrest hx hhome
  · refine ⟨fun hx => hr.mem_planned hx, fun hx => ?_⟩
    have hpos := hr.of_atRest hrest hx.1 hx.2
    exact List.count_pos_iff.1 (Nat.lt_of_lt_of_le (Nat.succ_pos readds) hpos)

end Crew

end TenantQueue.Queue
