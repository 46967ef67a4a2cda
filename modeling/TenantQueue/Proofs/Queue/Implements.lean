import TenantQueue.Queue.WorkQueue
import TenantQueue.Proofs.Queue.Rota

/-! Both kinds of queue implement a rota: the fair queue keeps its tenants in a ring, and the plain
queue has one tenant for all items. Calls on the queue are calls on the rota, with the same
answers. -/
namespace TenantQueue.Queue
open Telemetry
variable {α : Type}

/-- The tenant that an item belongs to, if a queue of the flavour accepts it. -/
def Flavour.home [WorkItem α] : Flavour → α → Option String
  | .fair, x => (WorkItem.tenant x).toOption
  | .fifo, _ => some ""

def Rota.toFair (name : String) (r : Rota α) : FairQueue α :=
  ⟨name, .ofEntries r.tenants r.resting, r.shuttingDown⟩

namespace WorkQueue

def parts : WorkQueue α → List (String × DedupQueue α)
  | fair q => q.tenants.entries
  | fifo q => [("", q.items)]

inductive Implements : WorkQueue α → Rota α → Prop where
  | fair (name : String) (r : Rota α) : Implements (fair (r.toFair name)) r
  | fifo (name : String) (items : DedupQueue α) (served : Option Nat) (shuttingDown : Bool) :
    Implements (fifo ⟨name, items, shuttingDown⟩) ⟨[("", items)], served, shuttingDown⟩

def initial : Flavour → Rota α
  | .fair => {}
  | .fifo => { tenants := [("", {})] }

theorem implements_empty (flavour : Flavour) (name : Option String) :
    (empty flavour name : WorkQueue α).Implements (initial flavour) := by
  cases flavour with
  | fair => cases name <;> exact .fair _ {}
  | fifo => cases name <;> exact .fifo _ {} none false

theorem flavour_empty (flavour : Flavour) (name : Option String) :
    (empty flavour name : WorkQueue α).flavour = flavour := by
  cases flavour <;> cases name <;> rfl

theorem initial_part (flavour : Flavour) (t : String) : (initial flavour : Rota α).part t = {} := by
  cases flavour with
  | fair => rfl
  | fifo => simp only [Rota.part, initial, List.lookup_cons]; cases t == "" <;> rfl

theorem sound_initial (flavour : Flavour) (home : α → Option String) :
    (initial flavour).Sound home where
  keys_nodup := by cases flavour <;> simp [initial]
  within := by cases flavour <;> trivial
  part_sound t := by rw [initial_part]; exact DedupQueue.sound_empty
  at_home t x h := by simp [initial_part] at h

theorem Implements.parts_eq {q : WorkQueue α} {r : Rota α} (h : q.Implements r) :
    q.parts = r.tenants := by
  cases h with
  | fair => exact Ring.entries_ofEntries _ _
  | fifo => rfl

theorem Implements.shuttingDown_eq {q : WorkQueue α} {r : Rota α} (h : q.Implements r) :
    q.shuttingDown = r.shuttingDown := by
  cases h <;> rfl

theorem tour_size (items : List (DedupQueue α)) (total : Nat) :
    Ring.tour (fun total (q : DedupQueue α) => (true, total + q.size)) items total =
      total + (items.map DedupQueue.size).sum := by
  induction items generalizing total with
  | nil => rfl
  | cons q items ih => simp [Ring.tour, ih, Nat.add_assoc]

theorem Implements.size_eq {q : WorkQueue α} {r : Rota α} (h : q.Implements r) :
    q.size = r.size := by
  cases h with
  | fair =>
    simp only [size, FairQueue.size, Rota.toFair, Ring.range_ofEntries, tour_size, Nat.zero_add,
      List.map_map]
    rfl
  | fifo => simp [size, FifoQueue.size, Rota.size]

theorem Implements.shutDown {q : WorkQueue α} {r : Rota α} (h : q.Implements r) :
    q.shutDown.1.Implements r.shutDown ∧ q.shutDown.2.signal = .all := by
  cases h with
  | fair name r => exact ⟨.fair name r.shutDown, rfl⟩
  | fifo name items served => exact ⟨.fifo name items served true, rfl⟩

theorem flavour_shutDown (q : WorkQueue α) : q.shutDown.1.flavour = q.flavour := by
  cases q <;> rfl

theorem tenant_of_home [WorkItem α] {x : α} {t : String} (ht : Flavour.fair.home x = some t) :
    WorkItem.tenant x = .ok t := by
  unfold Flavour.home at ht
  cases he : WorkItem.tenant x with
  | error e => simp [he, Except.toOption] at ht
  | ok s => simpa [he, Except.toOption] using ht

variable [DecidableEq α] {belongs : α → Option String}

/-- A sweep that picks the first waiting item stops at the first tenant that has an offer. -/
theorem sweep_pick (r : Rota α) (order : List Nat) :
    Ring.sweep FairQueue.pick order r.tenants none =
      match order.findSome? fun i => (r.offer i).map (i, ·) with
      | some (i, x, r') => (some i, r'.tenants, some x)
      | none => (none, r.tenants, none) := by
  induction order with
  | nil => rfl
  | cons i order ih =>
    rw [Ring.sweep, List.findSome?_cons]
    cases he : r.tenants[i]? with
    | none => simpa [Rota.offer, he] using ih
    | some e =>
      cases hg : e.2.get? with
      | none =>
        have hm : r.tenants.modify i (fun e' => (e'.1, e.2)) = r.tenants := by
          ext1 j
          by_cases hj : i = j
          · subst hj
            simp [he]
          · simp [hj]
        simpa [Rota.offer, he, hg, FairQueue.pick, hm] using ih
      | some taken => simp [Rota.offer, he, hg, FairQueue.pick]

theorem offer_some {r r' : Rota α} {i : Nat} {x : α} (h : r.offer i = some (x, r')) :
    r'.served = some i ∧ r'.shuttingDown = r.shuttingDown := by
  obtain ⟨e, -, ht⟩ := Option.bind_eq_some_iff.1 h
  obtain ⟨taken, -, heq⟩ := Option.map_eq_some_iff.1 ht
  cases heq
  exact ⟨rfl, rfl⟩

theorem toFair_get (name : String) {r : Rota α} (hs : r.Sound belongs) :
    (r.toFair name).get =
      match r.get with
      | (.item x, r') => (.item x, r'.toFair name, { counts := [.gets] })
      | (taken, r') => (taken, r'.toFair name, {}) := by
  have hf : r.order.findSome? r.offer =
      (r.order.findSome? fun i => (r.offer i).map (i, ·)).map Prod.snd := by
    rw [List.map_findSome?]
    congr 1
    funext i
    simp [Function.comp_def]
  unfold FairQueue.get Rota.get
  cases hd : r.shuttingDown with
  | true => simp [Rota.toFair, hd]
  | false =>
    simp only [Rota.toFair, hd, Ring.rangeNext_ofEntries _ _ _ hs.within, Bool.false_eq_true,
      if_false]
    rw [← Rota.order, sweep_pick, hf]
    cases hp : r.order.findSome? fun i => (r.offer i).map (i, ·) with
    | none => simp [Ring.afterSweep, hd]
    | some found =>
      obtain ⟨i, x, r'⟩ := found
      obtain ⟨-, j, -, -, hj, -⟩ := List.findSome?_eq_some_iff.1 hp
      obtain ⟨offered, ho, heq⟩ := Option.map_eq_some_iff.1 hj
      cases heq
      obtain ⟨h₁, h₂⟩ := offer_some ho
      simp [Ring.afterSweep, Rota.resting, h₁, h₂, hd]

theorem plain_get (name : String) {items : DedupQueue α} {served : Option Nat} {down : Bool}
    (hs : (⟨[("", items)], served, down⟩ : Rota α).Sound belongs) :
    ∃ items' served',
      (⟨name, items, down⟩ : FifoQueue α).get.2.1 = ⟨name, items', down⟩ ∧
      (⟨[("", items)], served, down⟩ : Rota α).get =
        ((⟨name, items, down⟩ : FifoQueue α).get.1, ⟨[("", items')], served', down⟩) := by
  have ho : (⟨[("", items)], served, down⟩ : Rota α).order = [0] := by
    cases served with
    | none => rfl
    | some i =>
      have : i = 0 := by simpa [Rota.resting, Position.Within] using hs.within
      subst this
      rfl
  unfold FifoQueue.get Rota.get
  cases down with
  | true => exact ⟨items, served, rfl, rfl⟩
  | false =>
    simp only [ho, List.findSome?_cons, List.findSome?_nil]
    cases hg : items.get? with
    | none => exact ⟨items, served, by simp, by simp [Rota.offer, hg]⟩
    | some taken => exact ⟨taken.2, some 0, by simp, by simp [Rota.offer, hg]⟩

theorem Implements.get {q : WorkQueue α} {r : Rota α} (h : q.Implements r)
    (hs : r.Sound belongs) :
    q.get.1 = r.get.1 ∧ q.get.2.1.Implements r.get.2 ∧ q.get.2.2.signal = .none := by
  cases h with
  | fair name r =>
    simp only [WorkQueue.get, toFair_get name hs]
    rcases r.get with ⟨_ | _ | _, r'⟩ <;> exact ⟨rfl, .fair name r', rfl⟩
  | fifo name items served down =>
    obtain ⟨items', served', hq, hr⟩ := plain_get name hs
    rw [hr]
    refine ⟨rfl, ?_, ?_⟩
    · simp only [WorkQueue.get, hq]
      exact .fifo name items' served' down
    · simp only [WorkQueue.get, FifoQueue.get]
      split
      · rfl
      · split <;> rfl

/-- What the queue hands out is what the rota serves. -/
theorem Implements.serving {q : WorkQueue α} {r : Rota α} (h : q.Implements r)
    (hs : r.Sound belongs) {x : α} (hg : q.get.1 = .item x) :
    ∃ i t rest, r.Serving x r.get.2 i t rest ∧ belongs x = some t := by
  have he : r.get = (.item x, r.get.2) := Prod.ext ((h.get hs).1.symm.trans hg) rfl
  obtain ⟨i, t, rest, hserving⟩ := Rota.get_item hs he
  have ht := hs.at_home t x (.inl ((hs.part_sound t).of_get hserving.taken).1)
  exact ⟨i, t, rest, hserving, ht⟩

/-- A queue that has nothing to hand out stays as it is. -/
theorem get_eq_self {q : WorkQueue α} {r : Rota α} (h : q.Implements r) (hs : r.Sound belongs)
    (hg : ∀ x, q.get.1 ≠ .item x) : q.get.2.1 = q := by
  cases h with
  | fair name r =>
    simp only [WorkQueue.get, toFair_get name hs] at hg ⊢
    rcases hr : r.get with ⟨x | _ | _, r'⟩
    · simp [hr] at hg
    · rw [(Rota.get_closed hr).2]
    · rw [(Rota.get_blocked hs hr).2.1]
  | fifo name items served down =>
    simp only [WorkQueue.get, FifoQueue.get] at hg ⊢
    cases down with
    | true => rfl
    | false =>
      cases hi : items.get? with
      | none => simp
      | some taken => simp [hi] at hg

theorem flavour_get (q : WorkQueue α) : q.get.2.1.flavour = q.flavour := by
  cases q <;> rfl

section Items
variable [WorkItem α]

def home (q : WorkQueue α) : α → Option String := q.flavour.home

theorem toFair_add (name : String) (r : Rota α) {t : String} {x : α}
    (ht : WorkItem.tenant x = .ok t) :
    ((r.toFair name).add x).1 = (r.put t x).toFair name ∧
      ((r.toFair name).add x).2.signal = .one := by
  simp only [FairQueue.add, ht, Rota.toFair, Ring.getOrInsert_ofEntries, and_true]
  cases hi : r.tenants.findIdx? fun e => t == e.1 with
  | some i =>
    have hv : r.tenants[i]?.map Prod.snd = r.tenants.lookup t := by
      rw [← Ring.findIdx?_bind, hi]
      rfl
    simp only [Ring.valueAt?_ofEntries, Ring.setValue_ofEntries, hv, Rota.put, Rota.part,
      Ring.assign_of_findIdx? _ _ hi]
    rfl
  | none =>
    have hl : r.tenants.lookup t = none := by
      rw [← Ring.findIdx?_bind, hi]
      rfl
    simp [Ring.valueAt?_ofEntries, Ring.setValue_ofEntries, Rota.put, Rota.part, hl,
      Ring.assign_of_lookup_none _ _ hl, Rota.resting, List.modify_eq_take_drop]

theorem toFair_done (name : String) (r : Rota α) {t : String} {x : α}
    (ht : WorkItem.tenant x = .ok t) :
    ((r.toFair name).done x).1 = (r.finish t x).2.toFair name ∧
      ((r.toFair name).done x).2.signal = if (r.finish t x).1 then .one else .none := by
  cases hl : r.tenants.lookup t with
  | none => simp [FairQueue.done, ht, Rota.toFair, Ring.get?_ofEntries, Rota.finish, hl]
  | some items =>
    have hne : r.tenants.lookup t ≠ none := hl ▸ Option.some_ne_none items
    simp only [FairQueue.done, ht, Rota.toFair, Ring.get?_ofEntries, Rota.finish, hl,
      Ring.set_ofEntries _ _ _ hne]
    exact ⟨rfl, by cases (items.done x).1 <;> rfl⟩

/-- An item that a fair queue does not accept leaves it as it is. -/
theorem toFair_rejects (q : FairQueue α) {x : α} (ht : (WorkItem.tenant x).toOption = none) :
    ((q.add x).1 = q ∧ (q.add x).2.signal = .none) ∧
      (q.done x).1 = q ∧ (q.done x).2.signal = .none := by
  cases he : WorkItem.tenant x with
  | error e => simp [FairQueue.add, FairQueue.done, he, FairQueue.dropped]
  | ok t => simp [he, Except.toOption] at ht

theorem flavour_add (q : WorkQueue α) (x : α) : (q.add x).1.flavour = q.flavour := by
  cases q <;> rfl

theorem flavour_done (q : WorkQueue α) (x : α) : (q.done x).1.flavour = q.flavour := by
  cases q <;> rfl

def wake : Flavour → Signal
  | .fair => .one
  | .fifo => .oneUnlocked

theorem Implements.add {q : WorkQueue α} {r : Rota α} (h : q.Implements r) {x : α} {t : String}
    (ht : q.home x = some t) :
    (q.add x).1.Implements (r.put t x) ∧ (q.add x).2.signal = wake q.flavour := by
  cases h with
  | fair name r =>
    obtain ⟨h₁, h₂⟩ := toFair_add name r (tenant_of_home ht)
    simp only [WorkQueue.add, h₁]
    exact ⟨.fair name _, h₂⟩
  | fifo name items served down =>
    cases ht
    exact ⟨.fifo name (items.add x) served down, rfl⟩

theorem Implements.done {q : WorkQueue α} {r : Rota α} (h : q.Implements r) {x : α} {t : String}
    (ht : q.home x = some t) :
    (q.done x).1.Implements (r.finish t x).2 ∧
      (q.done x).2.signal = if (r.finish t x).1 then wake q.flavour else .none := by
  cases h with
  | fair name r =>
    obtain ⟨h₁, h₂⟩ := toFair_done name r (tenant_of_home ht)
    simp only [WorkQueue.done, h₁]
    exact ⟨.fair name _, h₂⟩
  | fifo name items served down =>
    cases ht
    refine ⟨.fifo name (items.done x).2 served down, ?_⟩
    have hp : (⟨[("", items)], served, down⟩ : Rota α).part "" = items := by simp [Rota.part]
    rw [Rota.finish_fst, hp]
    simp only [WorkQueue.done, FifoQueue.done]
    cases (items.done x).1 <;> rfl

/-- An item that is not accepted leaves the queue as it is. -/
theorem rejects (q : WorkQueue α) {x : α} (ht : q.home x = none) :
    ((q.add x).1 = q ∧ (q.add x).2.signal = .none) ∧
      (q.done x).1 = q ∧ (q.done x).2.signal = .none := by
  cases q with
  | fair q =>
    obtain ⟨⟨h₁, h₂⟩, h₃, h₄⟩ := toFair_rejects q ht
    exact ⟨⟨by simp [WorkQueue.add, h₁], h₂⟩, by simp [WorkQueue.done, h₃], h₄⟩
  | fifo q => cases ht

end Items

end WorkQueue

end TenantQueue.Queue
