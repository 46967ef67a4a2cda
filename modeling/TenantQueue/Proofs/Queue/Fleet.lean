import Mathlib.Algebra.BigOperators.Group.Finset.Piecewise
import Mathlib.Data.Fintype.Basic
import TenantQueue.Proofs.Queue.Counters

/-! Several queues that count on one meter. Queues of one name share their totals, and a total is
what each of them has counted itself. A fair queue counts before it releases the lock; additions and
requeues of a queue in order are counted after that, and until then they are owed. -/
namespace TenantQueue.Telemetry.Meter

theorem total_recordAll (m : Meter) (queue queue' : String) (counters : List Counter)
    (counter : Counter) :
    (m.recordAll queue counters).total queue' counter =
      m.total queue' counter + if queue' = queue then counters.count counter else 0 := by
  induction counters generalizing m with
  | nil => simp [recordAll]
  | cons c counters ih =>
    have hrest : m.recordAll queue (c :: counters) = (m.record queue c).recordAll queue counters :=
      rfl
    rw [hrest, ih, total_record, List.count_cons]
    by_cases hq : queue' = queue
    · by_cases hc : counter = c
      · simp [hq, hc]
        omega
      · simp [hq, hc, Ne.symm hc]
    · simp [hq]

end TenantQueue.Telemetry.Meter

namespace TenantQueue.Queue
open Telemetry

namespace WorkQueue
variable {α : Type} [DecidableEq α] [WorkItem α]

theorem signal_fair_ne (q : FairQueue α) (call : Call α) :
    ((fair q).answer call).2.2.signal ≠ .oneUnlocked := by
  cases call with
  | add x =>
    simp only [answer, add, FairQueue.add]
    split <;> simp [FairQueue.dropped]
  | get =>
    simp only [answer, get, FairQueue.get]
    split
    · simp
    · split <;> simp
  | done x =>
    simp only [answer, done, FairQueue.done]
    split
    · simp [FairQueue.dropped]
    · split
      · simp
      · split <;> simp
  | shutDown => simp [answer, shutDown, FairQueue.shutDown]

/-- Only a queue in order wakes consumers after it has released the lock, and not when it hands out
an item. -/
theorem counts_of_oneUnlocked (q : WorkQueue α) (call : Call α)
    (h : (q.answer call).2.2.signal = .oneUnlocked) :
    q.flavour = .fifo ∧
      ∀ counter ∈ (q.answer call).2.2.counts, counter = .adds ∨ counter = .requeues := by
  cases q with
  | fair q => exact absurd h (signal_fair_ne q call)
  | fifo q =>
    refine ⟨rfl, ?_⟩
    cases call with
    | add x => simp [answer, add, FifoQueue.add]
    | get =>
      simp only [answer, get, FifoQueue.get] at h
      split at h
      · cases h
      · split at h <;> cases h
    | done x =>
      simp only [answer, done, FifoQueue.done]
      split <;> simp
    | shutDown => cases h

end WorkQueue

structure Fleet {ι : Type} (α : ι → Type) where
  queues : (i : ι) → WorkQueue (α i)
  meter : Meter := {}
  /-- What calls that have released the lock have yet to count. -/
  owed : List (ι × Counter) := []

inductive FleetTurn {ι : Type} (α : ι → Type) where
  | call (i : ι) (call : Call (α i))
  /-- A call that has released the lock counts what it owes. -/
  | count (k : Nat)

variable {ι : Type} {α : ι → Type} [DecidableEq ι]

def FleetTurn.calls (i : ι) : FleetTurn α → List (Call (α i))
  | .call j c => if h : j = i then [h ▸ c] else []
  | .count _ => []

def callsOn (i : ι) (turns : List (FleetTurn α)) : List (Call (α i)) :=
  turns.flatMap (·.calls i)

namespace Fleet
variable [∀ i, DecidableEq (α i)] [∀ i, WorkItem (α i)]

/-- A call counts before it releases the lock, or else after it, as it does with the signal that it
sends. -/
def step (f : Fleet α) : FleetTurn α → Fleet α
  | .call i call =>
    let effects := ((f.queues i).answer call).2.2
    let queues := Function.update f.queues i ((f.queues i).after call)
    if effects.signal = .oneUnlocked then
      { f with queues, owed := f.owed ++ effects.counts.map (i, ·) }
    else { f with queues, meter := f.meter.recordAll (f.queues i).name effects.counts }
  | .count k =>
    match f.owed[k]? with
    | some (i, counter) =>
      { f with meter := f.meter.record (f.queues i).name counter, owed := f.owed.eraseIdx k }
    | none => f

def run (turns : List (FleetTurn α)) (f : Fleet α) : Fleet α := turns.foldl step f

def counts (f : Fleet α) : FleetTurn α → List (ι × Counter)
  | .call i call =>
    let effects := ((f.queues i).answer call).2.2
    if effects.signal = .oneUnlocked then [] else effects.counts.map (i, ·)
  | .count k => f.owed[k]?.toList

def journal : List (FleetTurn α) → Fleet α → List (ι × Counter)
  | [], _ => []
  | turn :: turns, f => f.counts turn ++ journal turns (f.step turn)

theorem queues_step (f : Fleet α) (turn : FleetTurn α) (i : ι) :
    (f.step turn).queues i = (f.queues i).run (turn.calls i) := by
  cases turn with
  | call j call =>
    have hqueues : (f.step (.call j call)).queues =
        Function.update f.queues j ((f.queues j).after call) := by
      simp only [step]
      split <;> rfl
    rw [hqueues]
    by_cases hj : j = i
    · subst hj
      rw [Function.update_self, FleetTurn.calls, dif_pos rfl]
      rfl
    · rw [Function.update_of_ne (Ne.symm hj), FleetTurn.calls, dif_neg hj]
      rfl
  | count k =>
    simp only [step]
    split <;> exact rfl

theorem queues_run (turns : List (FleetTurn α)) (f : Fleet α) (i : ι) :
    (f.run turns).queues i = (f.queues i).run (callsOn i turns) := by
  induction turns generalizing f with
  | nil => rfl
  | cons turn turns ih =>
    have hcalls : callsOn i (turn :: turns) = turn.calls i ++ callsOn i turns := rfl
    rw [hcalls, WorkQueue.run_append, ← queues_step]
    exact ih (f.step turn)

theorem name_step (f : Fleet α) (turn : FleetTurn α) (i : ι) :
    ((f.step turn).queues i).name = (f.queues i).name := by
  rw [queues_step, WorkQueue.name_run]

theorem count_map_pair (i j : ι) (counters : List Counter) (counter : Counter) :
    (counters.map (i, ·)).count (j, counter) = if i = j then counters.count counter else 0 := by
  induction counters with
  | nil => simp
  | cons c counters ih =>
    rw [List.map_cons, List.count_cons, List.count_cons, ih]
    by_cases hi : i = j
    · simp [hi]
    · simp [hi]

/-- Whatever a turn counts, it counts for the queue that it happened on. -/
theorem counts_add_owed (f : Fleet α) (turn : FleetTurn α) (i : ι) (counter : Counter) :
    (f.counts turn).count (i, counter) + (f.step turn).owed.count (i, counter) =
      f.owed.count (i, counter) +
        (f.queues i).tally (WorkQueue.recorded counter) (turn.calls i) := by
  cases turn with
  | call j call =>
    have htally : (f.queues i).tally (WorkQueue.recorded counter) (FleetTurn.calls i (.call j call)) =
        (((f.queues j).answer call).2.2.counts.map (j, ·)).count (i, counter) := by
      rw [count_map_pair, FleetTurn.calls]
      by_cases hj : j = i
      · subst hj
        rw [dif_pos rfl, if_pos rfl]
        rfl
      · rw [dif_neg hj, if_neg hj]
        rfl
    rw [htally]
    simp only [counts, step]
    split
    · rw [List.count_nil, Nat.zero_add, List.count_append]
    · exact Nat.add_comm _ _
  | count k =>
    simp only [counts, step]
    split
    · next j c hk =>
      obtain ⟨hlt, hget⟩ := List.getElem?_eq_some_iff.1 hk
      rw [hk, ← (List.getElem_cons_eraseIdx_perm hlt).count_eq, hget, Option.toList_some,
        List.count_singleton, List.count_cons, Nat.add_comm]
      rfl
    · next hk =>
      rw [hk]
      exact Nat.zero_add _

theorem journal_add_owed (turns : List (FleetTurn α)) (f : Fleet α) (i : ι) (counter : Counter) :
    (f.journal turns).count (i, counter) + (f.run turns).owed.count (i, counter) =
      f.owed.count (i, counter) +
        (f.queues i).tally (WorkQueue.recorded counter) (callsOn i turns) := by
  induction turns generalizing f with
  | nil => exact Nat.zero_add _
  | cons turn turns ih =>
    have hcalls : callsOn i (turn :: turns) = turn.calls i ++ callsOn i turns := rfl
    have hstep := counts_add_owed f turn i counter
    have hrest := ih (f.step turn)
    rw [hcalls, WorkQueue.tally_append, ← queues_step, journal, List.count_append]
    change _ + ((f.step turn).run turns).owed.count (i, counter) = _
    omega

theorem owed_step {f : Fleet α} (turn : FleetTurn α)
    (h : ∀ e ∈ f.owed, (f.queues e.1).flavour = .fifo ∧ (e.2 = .adds ∨ e.2 = .requeues)) :
    ∀ e ∈ (f.step turn).owed,
      ((f.step turn).queues e.1).flavour = .fifo ∧ (e.2 = .adds ∨ e.2 = .requeues) := by
  intro e he
  rw [queues_step, WorkQueue.flavour_run]
  cases turn with
  | call i call =>
    simp only [step] at he
    split at he
    · next hs =>
      obtain ⟨hfifo, hcounts⟩ := WorkQueue.counts_of_oneUnlocked (f.queues i) call hs
      rcases List.mem_append.1 he with he | he
      · exact h e he
      · obtain ⟨counter, hc, rfl⟩ := List.mem_map.1 he
        exact ⟨hfifo, hcounts counter hc⟩
    · exact h e he
  | count k =>
    simp only [step] at he
    split at he
    · exact h e (List.mem_of_mem_eraseIdx he)
    · exact h e he

theorem owed_run (turns : List (FleetTurn α)) {f : Fleet α}
    (h : ∀ e ∈ f.owed, (f.queues e.1).flavour = .fifo ∧ (e.2 = .adds ∨ e.2 = .requeues)) :
    ∀ e ∈ (f.run turns).owed,
      ((f.run turns).queues e.1).flavour = .fifo ∧ (e.2 = .adds ∨ e.2 = .requeues) := by
  induction turns generalizing f with
  | nil => exact h
  | cons turn turns ih => exact ih (owed_step turn h)

theorem owed_count_first (f : Fleet α) : (f.step (.count 0)).owed = f.owed.tail := by
  cases h : f.owed with
  | nil => simp [step, h]
  | cons e owed => simp [step, h]

theorem run_replicate_count (n : Nat) {f : Fleet α} (hn : f.owed.length = n) :
    (f.run (List.replicate n (.count 0))).owed = [] := by
  induction n generalizing f with
  | zero => exact List.length_eq_zero_iff.1 hn
  | succ n ih =>
    refine ih ?_
    rw [owed_count_first, List.length_tail, hn, Nat.add_sub_cancel]

section Opened
variable (flavours : ι → Flavour) (names : ι → Option String) (turns : List (FleetTurn α))

def opened : Fleet α := { queues := fun i => .empty (flavours i) (names i) }

theorem journal_opened (i : ι) (counter : Counter) :
    ((opened flavours names).journal turns).count (i, counter) +
        ((opened flavours names).run turns).owed.count (i, counter) =
      ((opened flavours names).queues i).tally (WorkQueue.recorded counter) (callsOn i turns) :=
  (journal_add_owed turns _ i counter).trans (Nat.zero_add _)

theorem fifo_of_owed {i : ι} {counter : Counter}
    (h : ((opened flavours names).run turns).owed.count (i, counter) ≠ 0) :
    flavours i = .fifo ∧ (counter = .adds ∨ counter = .requeues) := by
  have hm := List.count_pos_iff.1 (Nat.pos_of_ne_zero h)
  have he := owed_run turns (f := opened flavours names) nofun (i, counter) hm
  rwa [queues_run, WorkQueue.flavour_run, opened, WorkQueue.flavour_empty] at he

theorem balanced_opened (i : ι) :
    let start : Fleet α := opened flavours names
    let f := start.run turns
    (f.queues i).Balanced
      ((start.journal turns).count (i, .adds) + f.owed.count (i, .adds))
      ((start.journal turns).count (i, .gets) + f.owed.count (i, .gets))
      ((start.journal turns).count (i, .requeues) + f.owed.count (i, .requeues))
      ((start.queues i).tally WorkQueue.collapsed (callsOn i turns))
      ((start.queues i).tally WorkQueue.deferred (callsOn i turns)) := by
  intro start f
  rw [queues_run, journal_opened, journal_opened, journal_opened]
  exact WorkQueue.balanced_run (flavours i) (names i) (callsOn i turns)

end Opened

variable [Fintype ι]

omit [∀ i, DecidableEq (α i)] [∀ i, WorkItem (α i)] in
theorem sum_count_map (f : Fleet α) (j : ι) (counters : List Counter) (name : String)
    (counter : Counter) :
    ∑ i with (f.queues i).name = name, (counters.map (j, ·)).count (i, counter) =
      if name = (f.queues j).name then counters.count counter else 0 := by
  simp only [count_map_pair, Finset.sum_ite_eq, Finset.mem_filter, Finset.mem_univ, true_and,
    eq_comm]

/-- What a turn adds to the total of a name is what the queues of that name count in it. -/
theorem total_step (f : Fleet α) (turn : FleetTurn α) (name : String) (counter : Counter) :
    (f.step turn).meter.total name counter =
      f.meter.total name counter +
        ∑ i with (f.queues i).name = name, (f.counts turn).count (i, counter) := by
  cases turn with
  | call j call =>
    simp only [step, counts]
    split
    · simp
    · rw [Meter.total_recordAll, sum_count_map]
  | count k =>
    simp only [step, counts]
    split
    · next j c hk =>
      have hone : f.owed[k]?.toList = [c].map (j, ·) := by
        rw [hk]
        rfl
      rw [hone, sum_count_map]
      exact Meter.total_recordAll f.meter _ name [c] counter
    · next hk => simp [hk]

theorem total_run (turns : List (FleetTurn α)) (f : Fleet α) (name : String) (counter : Counter) :
    (f.run turns).meter.total name counter =
      f.meter.total name counter +
        ∑ i with (f.queues i).name = name, (f.journal turns).count (i, counter) := by
  induction turns generalizing f with
  | nil => simp [journal, run]
  | cons turn turns ih =>
    have hrest := ih (f.step turn)
    simp only [name_step, total_step] at hrest
    simp only [journal, List.count_append, Finset.sum_add_distrib, ← Nat.add_assoc]
    exact hrest

/-- Whatever is called on several queues, in whatever order, the total of each counter for a name is
what the queues of that name have counted. A queue has counted all that its calls gave rise to, but
for additions and requeues that are owed: a fair queue owes nothing, and no queue does once each of
them is counted. By what a queue has counted and owes, the items that wait are the additions less
those that came to nothing, those that were put off and those handed out, and more those that were
queued again; and the items that were put off and have yet to be queued again are those both dirty
and checked out. Each accepted addition is counted, and each item that is handed out. -/
theorem counters_conserved (flavours : ι → Flavour) (names : ι → Option String)
    (turns : List (FleetTurn α)) :
    let start : Fleet α := opened flavours names
    let f := start.run turns
    let counted i counter := (start.journal turns).count (i, counter)
    let owed i counter := f.owed.count (i, counter)
    let events i counter := (start.queues i).tally (WorkQueue.recorded counter) (callsOn i turns)
    (∀ name counter,
      f.meter.total name counter = ∑ i with (start.queues i).name = name, counted i counter) ∧
    (∀ i counter, counted i counter + owed i counter = events i counter ∧
      (owed i counter ≠ 0 → flavours i = .fifo ∧ (counter = .adds ∨ counter = .requeues))) ∧
    (f.owed = [] → ∀ name counter,
      f.meter.total name counter = ∑ i with (start.queues i).name = name, events i counter) ∧
    (f.run (List.replicate f.owed.length (.count 0))).owed = [] ∧
    ∀ i,
      let q := f.queues i
      let collapsed := (start.queues i).tally WorkQueue.collapsed (callsOn i turns)
      let deferred := (start.queues i).tally WorkQueue.deferred (callsOn i turns)
      q = (start.queues i).run (callsOn i turns) ∧
        q.Balanced (counted i .adds + owed i .adds) (counted i .gets)
          (counted i .requeues + owed i .requeues) collapsed deferred ∧
        ((flavours i = .fair ∨ ∀ counter, owed i counter = 0) →
          q.Balanced (counted i .adds) (counted i .gets) (counted i .requeues) collapsed deferred) ∧
        (∀ x, x ∈ q.readded ↔ q.IsProcessing x ∧ q.IsDirty x) ∧
        counted i .adds + owed i .adds =
          ((callsOn i turns).countP fun call => (call.brings? (start.queues i).home).isSome) ∧
        counted i .gets = handOuts ((start.queues i).history (callsOn i turns)) := by
  intro start f counted owed events
  have htotal (name : String) (counter : Counter) : f.meter.total name counter =
      ∑ i with (start.queues i).name = name, counted i counter :=
    (total_run turns start name counter).trans (Nat.zero_add _)
  have hevents : ∀ i counter, counted i counter + owed i counter = events i counter :=
    journal_opened flavours names turns
  have hfifo {i : ι} {counter : Counter} (h : owed i counter ≠ 0) :
      flavours i = .fifo ∧ (counter = .adds ∨ counter = .requeues) :=
    fifo_of_owed flavours names turns h
  refine ⟨htotal, fun i counter => ⟨hevents i counter, hfifo⟩, ?_, run_replicate_count _ rfl, ?_⟩
  · intro hnone name counter
    rw [htotal]
    refine Finset.sum_congr rfl fun i _ => ?_
    have hzero : owed i counter = 0 := by simp only [owed, hnone, List.count_nil]
    rw [← hevents, hzero, Nat.add_zero]
  · intro i q collapsed deferred
    have hgets : owed i .gets = 0 := by
      by_contra h
      exact absurd (hfifo h).2 (by decide)
    have hbalanced : q.Balanced (counted i .adds + owed i .adds) (counted i .gets + owed i .gets)
        (counted i .requeues + owed i .requeues) collapsed deferred :=
      balanced_opened flavours names turns i
    have hsound : (start.queues i).Sound := WorkQueue.sound_empty (flavours i) (names i)
    obtain ⟨hadds, hhanded⟩ := hsound.tally_recorded (callsOn i turns)
    have hcounted : counted i .gets = events i .gets := by rw [← hevents, hgets, Nat.add_zero]
    rw [hgets, Nat.add_zero] at hbalanced
    refine ⟨queues_run turns start i, hbalanced, fun h => ?_, q.mem_readded,
      (hevents i .adds).trans hadds, hcounted.trans hhanded⟩
    have hnone (counter : Counter) : owed i counter = 0 := by
      rcases h with hfair | hnone
      · by_contra h
        exact absurd (hfair.symm.trans (hfifo h).1) (by decide)
      · exact hnone counter
    rwa [hnone, hnone] at hbalanced

/-- A fair queue and a queue in order share a name. The latter hands out its item before the
addition is counted, and its requeue is counted last. -/
theorem counters_conserved_shared_name :
    let start : Fleet fun _ : Bool => String :=
      opened (fun fair => if fair then .fair else .fifo) fun _ => some "q"
    let turns : List (FleetTurn fun _ : Bool => String) :=
      [.call true (.add "a/1"), .call true (.add "a/1"), .call false (.add "b/1"),
        .call false .get, .call true .get, .call true (.add "a/1"), .call false (.add "b/1"),
        .call true (.done "a/1"), .call false (.done "b/1"), .count 1, .count 0]
    let f := start.run turns
    let settled := start.run (turns ++ [.count 0])
    ((start.run (turns.take 5)).meter.total "q" .adds = 2 ∧
      (start.run (turns.take 5)).meter.total "q" .gets = 2 ∧
      (start.run (turns.take 5)).owed = [(false, .adds)]) ∧
    (f.meter.total "q" .adds = 5 ∧ f.meter.total "q" .gets = 2 ∧ f.meter.total "q" .requeues = 1 ∧
      f.owed = [(false, .requeues)]) ∧
    ((f.queues true).Balanced 3 1 1 1 1 ∧ (f.queues false).Balanced 2 1 (0 + 1) 0 1) ∧
    settled.owed = [] ∧ settled.meter.total "q" .requeues = 2 ∧
      (settled.queues false).Balanced 2 1 1 0 1 := by
  intro start turns f settled
  obtain ⟨-, -, -, -, hqueues⟩ := counters_conserved
    (fun fair : Bool => if fair then .fair else .fifo) (fun _ => some "q") turns
  obtain ⟨-, -, -, -, hqueues'⟩ := counters_conserved
    (fun fair : Bool => if fair then .fair else .fifo) (fun _ => some "q") (turns ++ [.count 0])
  obtain ⟨-, -, hfair, -⟩ := hqueues true
  obtain ⟨-, hfifo, -⟩ := hqueues false
  obtain ⟨-, -, hfifo', -⟩ := hqueues' false
  have hnone (counter : Counter) : settled.owed.count (false, counter) = 0 := by
    cases counter <;> decide
  refine ⟨by decide, by decide, ⟨?_, ?_⟩, by decide, by decide, ?_⟩
  · convert hfair (.inl rfl) using 1 <;> decide
  · convert hfifo using 1 <;> decide
  · convert hfifo' (.inr hnone) using 1 <;> decide

end Fleet

end TenantQueue.Queue
