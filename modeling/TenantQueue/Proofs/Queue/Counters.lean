import Mathlib.Data.Finset.Card
import TenantQueue.Proofs.Queue.Fairness
import TenantQueue.Proofs.Queue.Idle

/-! The counters of a queue add up to what it holds. Each addition is waiting still, or was handed
out, or came to nothing because its item was dirty already, or was put off because its item was
checked out and is queued again later. -/
namespace TenantQueue.Queue
open Telemetry
variable {α : Type}

theorem count_singleton (c counter : Counter) :
    [c].count counter = if counter = c then 1 else 0 := by
  cases c <;> cases counter <;> rfl

namespace WorkQueue

theorem name_shutDown (q : WorkQueue α) : q.shutDown.1.name = q.name := by
  cases q <;> rfl

variable [DecidableEq α]

def checkedOut (q : WorkQueue α) : Finset α :=
  (q.parts.flatMap fun part => part.2.processing).toFinset

def readded (q : WorkQueue α) : Finset α := q.checkedOut.filter q.IsDirty

theorem mem_checkedOut (q : WorkQueue α) (x : α) : x ∈ q.checkedOut ↔ q.IsProcessing x := by
  rw [checkedOut, List.mem_toFinset, List.mem_flatMap, IsProcessing]

theorem mem_readded (q : WorkQueue α) (x : α) :
    x ∈ q.readded ↔ q.IsProcessing x ∧ q.IsDirty x := by
  rw [readded, Finset.mem_filter, mem_checkedOut]

theorem name_get (q : WorkQueue α) : q.get.2.1.name = q.name := by
  cases q with
  | fair q =>
    simp only [get, FairQueue.get, name]
    split
    · rfl
    · split <;> rfl
  | fifo q =>
    simp only [get, FifoQueue.get, name]
    split
    · rfl
    · split <;> rfl

variable [WorkItem α]

theorem name_add (q : WorkQueue α) (x : α) : (q.add x).1.name = q.name := by
  cases q with
  | fair q => simp only [add, FairQueue.add, name]; split <;> rfl
  | fifo q => rfl

theorem name_done (q : WorkQueue α) (x : α) : (q.done x).1.name = q.name := by
  cases q with
  | fair q =>
    simp only [done, FairQueue.done, name]
    split
    · rfl
    · split <;> rfl
  | fifo q => rfl

theorem name_after (q : WorkQueue α) (call : Call α) : (q.after call).name = q.name := by
  cases call with
  | add x => exact name_add q x
  | get => exact name_get q
  | done x => exact name_done q x
  | shutDown => exact name_shutDown q

theorem name_run (calls : List (Call α)) (q : WorkQueue α) : (q.run calls).name = q.name := by
  induction calls generalizing q with
  | nil => rfl
  | cons call calls ih => exact (ih (q.after call)).trans (name_after q call)

theorem run_append (calls later : List (Call α)) (q : WorkQueue α) :
    q.run (calls ++ later) = (q.run calls).run later :=
  List.foldl_append

def tally (happens : WorkQueue α → Call α → Nat) : List (Call α) → WorkQueue α → Nat
  | [], _ => 0
  | call :: calls, q => happens q call + tally happens calls (q.after call)

theorem tally_append (happens : WorkQueue α → Call α → Nat) (calls later : List (Call α))
    (q : WorkQueue α) :
    tally happens (calls ++ later) q =
      tally happens calls q + tally happens later (q.run calls) := by
  induction calls generalizing q with
  | nil => exact (Nat.zero_add _).symm
  | cons call calls ih =>
    rw [List.cons_append, tally, tally, ih, Nat.add_assoc]
    rfl

def recorded (counter : Counter) (q : WorkQueue α) (call : Call α) : Nat :=
  (q.answer call).2.2.counts.count counter

/-- The call adds an item that is accepted, and dirty already. -/
def collapsed (q : WorkQueue α) : Call α → Nat
  | .add x => if (q.home x).isSome ∧ q.IsDirty x then 1 else 0
  | _ => 0

/-- The call adds an item that is accepted, not dirty, and checked out. -/
def deferred (q : WorkQueue α) : Call α → Nat
  | .add x => if (q.home x).isSome ∧ ¬ q.IsDirty x ∧ q.IsProcessing x then 1 else 0
  | _ => 0

variable {q : WorkQueue α} {x : α} {t : String}

theorem Sound.counts_done_eq (h : q.Sound) (hx : q.home x = some t) :
    (q.done x).2.counts = if q.IsProcessing x ∧ q.IsDirty x then [.requeues] else [] := by
  have hcounts := h.counts_done hx
  obtain ⟨r, hi, hr⟩ := h
  rw [hcounts, hi.part_eq]
  refine if_congr ?_ rfl rfl
  rw [DedupQueue.done_fst, isProcessing_iff_part hi hr hx, isDirty_iff_part hi hr hx]

theorem Sound.size_add_eq (h : q.Sound) (hx : q.home x = some t) :
    (q.add x).1.size = q.size + if q.IsDirty x ∨ q.IsProcessing x then 0 else 1 := by
  obtain ⟨items, hr⟩ := h.add_replaces hx
  have hsize := hr.size_add
  have hitems : (items.add x).size =
      items.size + if q.IsDirty x ∨ q.IsProcessing x then 0 else 1 := by
    simp only [DedupQueue.size, DedupQueue.waiting_add, hr.isDirty_before hx,
      hr.isProcessing_before hx]
    split <;> simp
  omega

theorem Sound.size_done_eq (h : q.Sound) (hx : q.home x = some t) :
    (q.done x).1.size = q.size + if q.IsProcessing x ∧ q.IsDirty x then 1 else 0 := by
  obtain ⟨items, hr, -⟩ := h.done_replaces hx
  have hsize := hr.size_add
  have hitems : (items.done x).2.size =
      items.size + if q.IsProcessing x ∧ q.IsDirty x then 1 else 0 := by
    simp only [DedupQueue.size, DedupQueue.waiting_done, hr.isDirty_before hx,
      hr.isProcessing_before hx]
    split <;> simp
  omega

theorem Sound.checkedOut_add (h : q.Sound) (x : α) : (q.add x).1.checkedOut = q.checkedOut := by
  ext y
  rw [mem_checkedOut, mem_checkedOut, h.isProcessing_add]

theorem Sound.checkedOut_get (h : q.Sound) (hg : q.get.1 = .item x) :
    q.get.2.1.checkedOut = insert x q.checkedOut := by
  ext y
  rw [Finset.mem_insert, mem_checkedOut, mem_checkedOut, h.isProcessing_get hg]

theorem Sound.checkedOut_done (h : q.Sound) (x : α) :
    (q.done x).1.checkedOut = q.checkedOut.erase x := by
  ext y
  rw [Finset.mem_erase, mem_checkedOut, mem_checkedOut, h.isProcessing_done]

theorem Sound.readded_add (h : q.Sound) (hx : q.home x = some t) :
    (q.add x).1.readded = if q.IsProcessing x then insert x q.readded else q.readded := by
  ext y
  rw [mem_readded, h.isProcessing_add, h.isDirty_add hx]
  split
  · next hp =>
    rw [Finset.mem_insert, mem_readded]
    refine ⟨fun ⟨hy, hd⟩ => hd.imp id fun hd => ⟨hy, hd⟩, ?_⟩
    rintro (rfl | ⟨hy, hd⟩)
    · exact ⟨hp, .inl rfl⟩
    · exact ⟨hy, .inr hd⟩
  · next hp =>
    rw [mem_readded]
    refine ⟨fun ⟨hy, hd⟩ => ⟨hy, hd.resolve_left ?_⟩, fun ⟨hy, hd⟩ => ⟨hy, .inr hd⟩⟩
    rintro rfl
    exact hp hy

/-- An item that is handed out was not checked out, and is not dirty any more. -/
theorem Sound.readded_get (h : q.Sound) (hg : q.get.1 = .item x) :
    q.get.2.1.readded = q.readded := by
  have hp : ¬ q.IsProcessing x := (h.waiting_of_get hg).2
  ext y
  rw [mem_readded, mem_readded, h.isProcessing_get hg, h.isDirty_get hg]
  by_cases hy : y = x
  · subst hy
    simp [hp]
  · simp [hy]

theorem Sound.readded_done (h : q.Sound) (x : α) : (q.done x).1.readded = q.readded.erase x := by
  ext y
  rw [Finset.mem_erase, mem_readded, mem_readded, h.isProcessing_done, h.isDirty_done, and_assoc]

theorem recorded_of_drop (call : Call α) (h : Drop (q.answer call).2.2) {counter : Counter}
    (hc : counter ≠ .dropped) : q.recorded counter call = 0 := by
  rw [recorded, h.1, count_singleton, if_neg hc]

theorem recorded_add (hx : q.home x = some t) (counter : Counter) :
    q.recorded counter (.add x) = if counter = .adds then 1 else 0 := by
  have hcounts : (q.answer (.add x)).2.2.counts = [.adds] := counts_add hx
  rw [recorded, hcounts, count_singleton]

theorem recorded_get (hg : q.get.1 = .item x) (counter : Counter) :
    q.recorded counter .get = if counter = .gets then 1 else 0 := by
  have hcounts : (q.answer .get).2.2.counts = _ := counts_get q
  rw [recorded, hcounts, hg, count_singleton]

theorem recorded_get_none (hg : ∀ x, q.get.1 ≠ .item x) (counter : Counter) :
    q.recorded counter .get = 0 := by
  have hcounts : (q.answer .get).2.2.counts = _ := counts_get q
  rw [recorded, hcounts]
  cases ht : q.get.1 with
  | item x => exact absurd ht (hg x)
  | closed => rfl
  | blocked => rfl

theorem Sound.recorded_done (h : q.Sound) (hx : q.home x = some t) (counter : Counter) :
    q.recorded counter (.done x) =
      if counter = .requeues ∧ q.IsProcessing x ∧ q.IsDirty x then 1 else 0 := by
  have hcounts : (q.answer (.done x)).2.2.counts = _ := h.counts_done_eq hx
  rw [recorded, hcounts]
  by_cases hm : q.IsProcessing x ∧ q.IsDirty x
  · simp [hm, count_singleton]
  · simp [hm]

theorem recorded_shutDown (counter : Counter) : q.recorded counter .shutDown = 0 := by
  have hcounts : (q.answer .shutDown).2.2.counts = [] := counts_shutDown q
  rw [recorded, hcounts, List.count_nil]

theorem empty_holds_nothing (flavour : Flavour) (name : Option String) :
    let q : WorkQueue α := .empty flavour name
    q.size = 0 ∧ q.readded.card = 0 ∧ q.checkedOut.card = 0 := by
  intro q
  have hnot := not_held_empty (α := α) flavour name
  have hout : q.checkedOut = ∅ := Finset.eq_empty_of_forall_notMem fun x hx =>
    (hnot x).2 ((q.mem_checkedOut x).1 hx)
  refine ⟨(sound_empty flavour name).size_eq_zero.2 fun x hx => (hnot x).1 hx.1, ?_, ?_⟩
  · rw [readded, hout, Finset.filter_empty, Finset.card_empty]
  · rw [hout, Finset.card_empty]

structure Posts (q : WorkQueue α) (call : Call α) : Prop where
  size : (q.after call).size + q.collapsed call + q.deferred call + q.recorded .gets call =
    q.size + q.recorded .adds call + q.recorded .requeues call
  readded : (q.after call).readded.card + q.recorded .requeues call =
    q.readded.card + q.deferred call
  checkedOut : (q.after call).checkedOut.card + q.recorded .requeues call ≤
    q.checkedOut.card + q.recorded .gets call

/-- A call that changes nothing and is not counted, unless as a drop. -/
theorem posts_of_eq_self {call : Call α} (hq : q.after call = q)
    (hcollapsed : q.collapsed call = 0) (hdeferred : q.deferred call = 0)
    (hcounts : ∀ counter ≠ .dropped, q.recorded counter call = 0) : q.Posts call := by
  have hadds := hcounts .adds (by decide)
  have hgets := hcounts .gets (by decide)
  have hrequeues := hcounts .requeues (by decide)
  constructor
  · rw [hq, hcollapsed, hdeferred, hgets, hadds, hrequeues]
  · rw [hq, hdeferred, hrequeues]
  · rw [hq, hgets, hrequeues]

theorem Sound.posts_add (h : q.Sound) (x : α) : q.Posts (.add x) := by
  cases hx : q.home x with
  | none =>
    obtain ⟨hq, hdrop⟩ := drop_add hx
    exact posts_of_eq_self hq (by simp [collapsed, hx]) (by simp [deferred, hx])
      fun counter hc => recorded_of_drop (.add x) hdrop hc
  | some t =>
    have hafter : q.after (.add x) = (q.add x).1 := rfl
    have hcollapsed : q.collapsed (.add x) = if q.IsDirty x then 1 else 0 := by
      simp [collapsed, hx]
    have hdeferred :
        q.deferred (.add x) = if ¬ q.IsDirty x ∧ q.IsProcessing x then 1 else 0 := by
      simp [deferred, hx]
    constructor
    · simp only [hafter, h.size_add_eq hx, hcollapsed, hdeferred, recorded_add hx]
      by_cases hd : q.IsDirty x <;> by_cases hp : q.IsProcessing x <;> simp [hd, hp]
    · simp only [hafter, h.readded_add hx, hdeferred, recorded_add hx]
      by_cases hp : q.IsProcessing x
      · by_cases hd : q.IsDirty x
        · have hm : x ∈ q.readded := (q.mem_readded x).2 ⟨hp, hd⟩
          simp [hd, hp, hm]
        · have hm : x ∉ q.readded := fun hm => hd ((q.mem_readded x).1 hm).2
          simp [hd, hp, hm]
      · simp [hp]
    · simp [hafter, h.checkedOut_add, recorded_add hx]

theorem Sound.posts_get (h : q.Sound) : q.Posts .get := by
  by_cases hg : ∃ x, q.get.1 = .item x
  · obtain ⟨x, hg⟩ := hg
    have hafter : q.after .get = q.get.2.1 := rfl
    have hsize := h.size_get hg
    have hp : x ∉ q.checkedOut := fun hm => (h.waiting_of_get hg).2 ((q.mem_checkedOut x).1 hm)
    constructor
    · simp [hafter, recorded_get hg, collapsed, deferred, ← hsize]
    · simp [hafter, h.readded_get hg, recorded_get hg, deferred]
    · rw [hafter, h.checkedOut_get hg, Finset.card_insert_of_notMem hp, recorded_get hg,
        recorded_get hg]
      simp
  · have hnone : ∀ x, q.get.1 ≠ .item x := not_exists.1 hg
    exact posts_of_eq_self (h.get_eq_self hnone) rfl rfl fun counter _ =>
      recorded_get_none hnone counter

theorem Sound.posts_done (h : q.Sound) (x : α) : q.Posts (.done x) := by
  cases hx : q.home x with
  | none =>
    obtain ⟨hq, hdrop⟩ := drop_done hx
    exact posts_of_eq_self hq rfl rfl fun counter hc => recorded_of_drop (.done x) hdrop hc
  | some t =>
    have hafter : q.after (.done x) = (q.done x).1 := rfl
    constructor
    · simp [hafter, h.size_done_eq hx, h.recorded_done hx, collapsed, deferred]
    · rw [hafter, h.readded_done, h.recorded_done hx]
      by_cases hm : q.IsProcessing x ∧ q.IsDirty x
      · have hmem : x ∈ q.readded := (q.mem_readded x).2 hm
        rw [if_pos ⟨rfl, hm⟩, Finset.card_erase_add_one hmem]
        rfl
      · have hmem : x ∉ q.readded := fun hmem => hm ((q.mem_readded x).1 hmem)
        rw [Finset.erase_eq_of_notMem hmem, if_neg fun h => hm h.2]
        rfl
    · have hgets : q.recorded .gets (.done x) = 0 := by simp [h.recorded_done hx]
      have hrequeues : q.recorded .requeues (.done x) ≤ 1 := by
        rw [h.recorded_done hx]
        split <;> omega
      rw [hafter, h.checkedOut_done, hgets]
      by_cases hp : q.IsProcessing x
      · have hmem : x ∈ q.checkedOut := (q.mem_checkedOut x).2 hp
        have hcard := Finset.card_erase_add_one hmem
        omega
      · have hmem : x ∉ q.checkedOut := fun hmem => hp ((q.mem_checkedOut x).1 hmem)
        rw [Finset.erase_eq_of_notMem hmem, h.recorded_done hx]
        simp [hp]

theorem posts_shutDown (q : WorkQueue α) : q.Posts .shutDown := by
  have hout : (q.after .shutDown).checkedOut = q.checkedOut := by
    ext y
    rw [mem_checkedOut, mem_checkedOut]
    exact isProcessing_shutDown q y
  have hagain : (q.after .shutDown).readded = q.readded := by
    ext y
    rw [mem_readded, mem_readded]
    exact and_congr (isProcessing_shutDown q y) (isDirty_shutDown q y)
  have hsize : (q.after .shutDown).size = q.size := size_shutDown q
  constructor
  · simp [hsize, recorded_shutDown, collapsed, deferred]
  · simp [hagain, recorded_shutDown, deferred]
  · simp [hout, recorded_shutDown]

theorem Sound.posts (h : q.Sound) (call : Call α) : q.Posts call := by
  cases call with
  | add x => exact h.posts_add x
  | get => exact h.posts_get
  | done x => exact h.posts_done x
  | shutDown => exact posts_shutDown q

/-- What the counters of a run say of what it leaves. -/
theorem Sound.posts_run (h : q.Sound) (calls : List (Call α)) :
    ((q.run calls).size + tally collapsed calls q + tally deferred calls q +
        tally (recorded .gets) calls q =
      q.size + tally (recorded .adds) calls q + tally (recorded .requeues) calls q) ∧
    ((q.run calls).readded.card + tally (recorded .requeues) calls q =
      q.readded.card + tally deferred calls q) ∧
    ((q.run calls).checkedOut.card + tally (recorded .requeues) calls q ≤
      q.checkedOut.card + tally (recorded .gets) calls q) := by
  induction calls generalizing q with
  | nil => exact ⟨rfl, rfl, Nat.le_refl _⟩
  | cons call calls ih =>
    obtain ⟨hsize, hreadded, hout⟩ := h.posts call
    obtain ⟨hsizes, hreaddeds, houts⟩ := ih (h.after call)
    simp only [run_cons, tally]
    omega

/-- An addition is counted if it is accepted, whatever the queue holds and also after a shutdown. -/
theorem Sound.recorded_adds (h : q.Sound) (call : Call α) :
    q.recorded .adds call = if (call.brings? q.home).isSome then 1 else 0 := by
  cases call with
  | add x =>
    cases hx : q.home x with
    | none => simp [Call.brings?, hx, recorded_of_drop (.add x) (drop_add hx).2]
    | some t => simp [Call.brings?, hx, recorded_add hx]
  | get =>
    by_cases hg : ∃ x, q.get.1 = .item x
    · obtain ⟨x, hg⟩ := hg
      simp [Call.brings?, recorded_get hg]
    · simp [Call.brings?, recorded_get_none (not_exists.1 hg)]
  | done x =>
    cases hx : q.home x with
    | none => simp [Call.brings?, recorded_of_drop (.done x) (drop_done hx).2]
    | some t => simp [Call.brings?, h.recorded_done hx]
  | shutDown => exact recorded_shutDown .adds

/-- A consumer that gets no item is not counted. -/
theorem Sound.recorded_gets (h : q.Sound) (call : Call α) :
    q.recorded .gets call = handOuts (q.occurs call) := by
  cases call with
  | add x =>
    cases hx : q.home x with
    | none => simp [occurs, handOuts, recorded_of_drop (.add x) (drop_add hx).2]
    | some t => simp [occurs, handOuts, recorded_add hx]
  | get =>
    cases hg : q.get.1 with
    | item x => simp [occurs, handOuts, hg, recorded_get hg]
    | closed => simp [occurs, handOuts, hg, recorded_get_none]
    | blocked => simp [occurs, handOuts, hg, recorded_get_none]
  | done x =>
    cases hx : q.home x with
    | none => simp [occurs, handOuts, recorded_of_drop (.done x) (drop_done hx).2]
    | some t => simp [occurs, handOuts, h.recorded_done hx]
  | shutDown => exact recorded_shutDown .gets

theorem Sound.tally_recorded (h : q.Sound) (calls : List (Call α)) :
    tally (recorded .adds) calls q = (calls.countP fun call => (call.brings? q.home).isSome) ∧
      tally (recorded .gets) calls q = handOuts (q.history calls) := by
  induction calls generalizing q with
  | nil => exact ⟨rfl, rfl⟩
  | cons call calls ih =>
    obtain ⟨hadds, hgets⟩ := ih (h.after call)
    rw [home_after] at hadds
    rw [tally, tally, hadds, hgets, history, handOuts_append, h.recorded_adds, h.recorded_gets,
      List.countP_cons, Nat.add_comm]
    exact ⟨rfl, rfl⟩

structure Balanced (q : WorkQueue α) (adds gets requeues collapsed deferred : Nat) : Prop where
  size_eq : (q.size : ℤ) = adds - collapsed - deferred + requeues - gets
  readded_eq : (deferred : ℤ) - requeues = q.readded.card
  requeues_le_deferred : requeues ≤ deferred
  requeues_le_gets : requeues ≤ gets
  handed_le : gets + q.size ≤ adds

theorem balanced_run (flavour : Flavour) (name : Option String) (calls : List (Call α)) :
    let q : WorkQueue α := .empty flavour name
    (q.run calls).Balanced (tally (recorded .adds) calls q) (tally (recorded .gets) calls q)
      (tally (recorded .requeues) calls q) (tally collapsed calls q) (tally deferred calls q) := by
  intro q
  have hsound : q.Sound := sound_empty flavour name
  obtain ⟨hsize, hreadded, hout⟩ := hsound.posts_run calls
  have hnone : q.size = 0 ∧ q.readded.card = 0 ∧ q.checkedOut.card = 0 :=
    empty_holds_nothing flavour name
  constructor <;> omega

end WorkQueue

end TenantQueue.Queue
