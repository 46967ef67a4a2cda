import TenantQueue.Proofs.Queue.Calls
import Mathlib.Data.List.Induction

/-! A fair queue cannot be told from a rota. After any calls its ring is the rota's list of tenants
laid out, and every further call gives the same answer, reports the same and leaves both alike. -/
namespace TenantQueue.Queue
open Telemetry
variable {α : Type}

def Call.brings? (belongs : α → Option String) : Call α → Option String
  | .add x => belongs x
  | _ => none

namespace Rota
variable {belongs : α → Option String} {r : Rota α} {t : String} {x : α}

theorem mem_keys_iff : t ∈ r.keys ↔ r.tenants.lookup t ≠ none := by
  constructor
  · intro h hn
    obtain ⟨e, he, rfl⟩ := List.mem_map.1 h
    simpa using List.lookup_eq_none_iff.1 hn e he
  · intro h
    obtain ⟨items, hl⟩ := Option.ne_none_iff_exists'.1 h
    obtain ⟨front, back, he, -⟩ := List.lookup_eq_some_iff.1 hl
    simp [keys, he]

theorem keys_withPart_eq (r : Rota α) (t : String) (items : DedupQueue α) (served : Option Nat) :
    (r.withPart t items served).keys = if t ∈ r.keys then r.keys else r.keys ++ [t] :=
  Ring.keys_assign r.tenants t items

variable [DecidableEq α]

theorem keys_finish (r : Rota α) (t : String) (x : α) : (r.finish t x).2.keys = r.keys := by
  unfold finish
  split
  · rfl
  · next items h =>
    have ht : t ∈ r.keys := mem_keys_iff.2 (by simp [h])
    exact (keys_withPart_eq r t (items.done x).2 r.served).trans (if_pos ht)

theorem keys_get (h : r.Sound belongs) : r.get.2.keys = r.keys := by
  rcases hg : r.get with ⟨taken, r'⟩
  cases taken with
  | item y =>
    obtain ⟨i, t, rest, hs⟩ := get_item h hg
    have ht : t ∈ r.keys := List.mem_map_of_mem (List.mem_of_getElem? hs.tenant)
    rw [hs.left, keys_withPart_eq, if_pos ht]
  | closed => rw [(get_closed hg).2]
  | blocked => rw [(get_blocked h hg).2.1]

/-- Only an addition brings a tenant in, and only a new one. -/
theorem keys_after_eq (h : r.Sound belongs) (call : Call α) :
    (r.after belongs call).keys =
      match call.brings? belongs with
      | some t => if t ∈ r.keys then r.keys else r.keys ++ [t]
      | none => r.keys := by
  cases call with
  | add x =>
    simp only [after, Call.brings?]
    cases belongs x with
    | none => rfl
    | some t => exact keys_withPart_eq r t _ r.served
  | get => exact keys_get h
  | done x =>
    simp only [after, Call.brings?]
    cases belongs x with
    | none => rfl
    | some t => exact keys_finish r t x
  | shutDown => rfl

theorem run_snoc (calls : List (Call α)) (call : Call α) (r : Rota α) :
    r.run belongs (calls ++ [call]) = (r.run belongs calls).after belongs call := by
  simp [run]

/-- The tenants stand in the order of their first items. -/
theorem keys_run_eq (belongs : α → Option String) (calls : List (Call α)) :
    (run belongs calls {}).keys = (calls.filterMap (Call.brings? belongs)).eraseDups := by
  induction calls using List.reverseRecOn with
  | nil => rfl
  | append_singleton calls call ih =>
    have hs : (run belongs calls {}).Sound belongs := (sound_empty belongs).run calls
    rw [run_snoc, keys_after_eq hs, ih, List.filterMap_append]
    cases hc : call.brings? belongs with
    | none => simp [hc]
    | some t =>
      simp only [List.filterMap_cons, List.filterMap_nil, hc, List.eraseDups_append,
        List.mem_eraseDups]
      split <;> simp_all [List.removeAll, List.eraseDups_cons]

theorem get_blocked_iff (h : r.Sound belongs) :
    r.get.1 = .blocked ↔ r.shuttingDown = false ∧ ∀ e ∈ r.tenants, e.2.waiting = [] := by
  constructor
  · intro hb
    have hg : r.get = (.blocked, r.get.2) := Prod.ext hb rfl
    obtain ⟨hopen, -, hnone⟩ := get_blocked h hg
    exact ⟨hopen, hnone⟩
  · rintro ⟨hopen, hnone⟩
    rcases hg : r.get with ⟨taken, r'⟩
    cases taken with
    | item y =>
      obtain ⟨i, t, rest, hs⟩ := get_item h hg
      have hw := hnone _ (List.mem_of_getElem? hs.tenant)
      rw [(DedupQueue.get?_eq_some hs.taken).1] at hw
      cases hw
    | closed =>
      rw [(get_closed hg).1] at hopen
      cases hopen
    | blocked => rfl

def answer (r : Rota α) : Call α → Option (Taken α)
  | .get => some r.get.1
  | _ => none

variable [WorkItem α]

/-- What a fair queue with a name reports of a call. A tenant is announced when it comes in. -/
def effects (name : String) (r : Rota α) : Call α → Effects
  | .add x =>
    match WorkItem.tenant x with
    | .error e => FairQueue.dropped { name } "dropping item on add" x e
    | .ok t =>
      let created : Event :=
        ⟨.debug, "created tenant queue", [("queue", .text name), ("tenant", .text t)], none⟩
      { counts := [.adds], events := if t ∈ r.keys then [] else [created], signal := .one }
  | .get =>
    match r.get.1 with
    | .item _ => { counts := [.gets] }
    | _ => {}
  | .done x =>
    match WorkItem.tenant x with
    | .error e => FairQueue.dropped { name } "dropping item on done" x e
    | .ok t => if (r.finish t x).1 then { counts := [.requeues], signal := .one } else {}
  | .shutDown =>
    { events := [⟨.info, "queue shutting down", [("queue", .text name)], none⟩], signal := .all }

end Rota

namespace WorkQueue
variable [WorkItem α] {x : α} {t : String}

theorem home_of_tenant (ht : WorkItem.tenant x = .ok t) : Flavour.fair.home x = some t :=
  congrArg Except.toOption ht

theorem home_of_error {e : Error} (ht : WorkItem.tenant x = .error e) :
    Flavour.fair.home x = none := congrArg Except.toOption ht

variable [DecidableEq α] {r : Rota α}

theorem effects_add (name : String) (r : Rota α) (x : α) :
    ((r.toFair name).add x).2 = r.effects name (.add x) := by
  cases ht : WorkItem.tenant x with
  | error e => simp only [FairQueue.add, Rota.effects, ht, Rota.toFair, FairQueue.dropped]
  | ok t =>
    have hk : (r.tenants.findIdx? fun e => t == e.1) = none ↔ t ∉ r.keys :=
      Ring.findIdx?_eq_none_iff r.tenants t
    simp only [FairQueue.add, Rota.effects, ht, Rota.toFair, Ring.getOrInsert_ofEntries]
    cases hi : r.tenants.findIdx? fun e => t == e.1 with
    | none => simp [hk.1 hi]
    | some i =>
      have hm : t ∈ r.keys := by
        by_contra hn
        rw [hk.2 hn] at hi
        cases hi
      simp [hm]

theorem effects_done (name : String) (r : Rota α) (x : α) :
    ((r.toFair name).done x).2 = r.effects name (.done x) := by
  cases ht : WorkItem.tenant x with
  | error e => simp only [FairQueue.done, Rota.effects, ht, Rota.toFair, FairQueue.dropped]
  | ok t =>
    simp only [FairQueue.done, Rota.effects, ht, Rota.toFair, Ring.get?_ofEntries]
    cases hl : r.tenants.lookup t with
    | none => simp [Rota.finish, hl]
    | some items => simp [Rota.finish, hl]

/-- A call on a fair queue is the same call on the rota. -/
theorem answer_toFair (name : String) (hr : r.Sound Flavour.fair.home) (call : Call α) :
    (WorkQueue.fair (r.toFair name)).answer call =
      (r.answer call, .fair ((r.after Flavour.fair.home call).toFair name),
        r.effects name call) := by
  cases call with
  | add x =>
    have hstate : ((r.toFair name).add x).1 = (r.after Flavour.fair.home (.add x)).toFair name := by
      cases ht : WorkItem.tenant x with
      | error e => simp only [FairQueue.add, ht, Rota.after, home_of_error ht]
      | ok t => simpa only [Rota.after, home_of_tenant ht] using (toFair_add name r ht).1
    simp only [answer, WorkQueue.add, hstate, effects_add, Rota.answer]
  | get =>
    simp only [answer, WorkQueue.get, toFair_get name hr, Rota.answer, Rota.after, Rota.effects]
    rcases r.get with ⟨_ | _ | _, r'⟩ <;> rfl
  | done x =>
    have hstate : ((r.toFair name).done x).1 =
        (r.after Flavour.fair.home (.done x)).toFair name := by
      cases ht : WorkItem.tenant x with
      | error e => simp only [FairQueue.done, ht, Rota.after, home_of_error ht]
      | ok t => simpa only [Rota.after, home_of_tenant ht] using (toFair_done name r ht).1
    simp only [answer, WorkQueue.done, hstate, effects_done, Rota.answer]
  | shutDown => rfl

theorem run_toFair (name : String) (hr : r.Sound Flavour.fair.home) (calls : List (Call α)) :
    run calls (.fair (r.toFair name)) = .fair ((r.run Flavour.fair.home calls).toFair name) := by
  induction calls generalizing r with
  | nil => rfl
  | cons call calls ih =>
    have hstep : (WorkQueue.fair (r.toFair name)).after call =
        .fair ((r.after Flavour.fair.home call).toFair name) := by
      rw [after, answer_toFair name hr]
    exact (congrArg (run calls) hstep).trans (ih (hr.after call))

/-- A fair queue is a rota after whatever calls: it holds the tenants in the order of their first
items, each with its items, and rests where the rota rests. Every call that comes next is answered
as the rota answers it, has the effects that the rota tells, and leaves the two alike. A consumer is
made to wait only where no tenant has anything waiting, and then nothing is changed. -/
theorem run_follows_rota (name : String) (calls : List (Call α)) :
    let q : WorkQueue α := run calls (.fair { name })
    let r : Rota α := Rota.run Flavour.fair.home calls {}
    q = .fair (r.toFair name) ∧
      (q.parts = r.tenants ∧ q.size = r.size ∧ q.shuttingDown = r.shuttingDown ∧
        (r.toFair name).tenantCount = r.tenants.length) ∧
      (∀ call, q.answer call =
        (r.answer call, .fair ((r.after Flavour.fair.home call).toFair name),
          r.effects name call)) ∧
      (q.get.1 = .blocked ↔ r.shuttingDown = false ∧ ∀ e ∈ r.tenants, e.2.waiting = []) ∧
      ((∀ x, q.get.1 ≠ .item x) → q.get.2.1 = q) ∧
      r.keys = (calls.filterMap (Call.brings? Flavour.fair.home)).eraseDups ∧
      ∀ later, r.keys <+: (r.run Flavour.fair.home later).keys := by
  intro q r
  have hr : r.Sound Flavour.fair.home := (Rota.sound_empty _).run calls
  have hq : q = .fair (r.toFair name) := run_toFair name (Rota.sound_empty _) calls
  have hi : q.Implements r := hq ▸ .fair name r
  have hanswer (call : Call α) := answer_toFair name hr call
  have hget : q.get.1 = r.get.1 := by
    rw [hq]
    exact Option.some.inj (congrArg Prod.fst (hanswer .get))
  refine ⟨hq, ⟨hi.parts_eq, hi.size_eq, hi.shuttingDown_eq, Ring.size_ofEntries _ _⟩,
    fun call => hq ▸ hanswer call, ?_, get_eq_self hi hr, Rota.keys_run_eq _ calls,
    Rota.keys_run hr⟩
  rw [hget]
  exact Rota.get_blocked_iff hr

end WorkQueue

end TenantQueue.Queue
