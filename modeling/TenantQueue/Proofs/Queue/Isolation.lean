import TenantQueue.Proofs.Queue.Scheduler

/-! Tenants do not get in each other's way. The calls that concern one tenant of a fair queue could
have been made on a plain queue of its own: they are answered alike there, and leave the same items.
A fair queue with one tenant is a plain queue altogether. -/
namespace TenantQueue.Queue
open Telemetry
variable {α : Type}

structure Entry (α : Type) where
  call : Call α
  answer : Option (Taken α)
  counts : List Counter
  size : Nat
  shuttingDown : Bool
  deriving DecidableEq, Repr

namespace Entry

/-- What is seen of the call alone. An item was put back if that was counted. -/
def outcome (e : Entry α) : Call α × Option (Taken α) × List Counter :=
  (e.call, e.answer, e.counts)

variable [WorkItem α]

def concerns (t : String) (e : Entry α) : Bool :=
  match e.call, e.answer with
  | .add x, _ => Flavour.fair.home x == some t
  | .done x, _ => Flavour.fair.home x == some t
  | .get, some (.item x) => Flavour.fair.home x == some t
  | _, _ => false

def accepted (e : Entry α) : Bool :=
  match e.call with
  | .add x => (Flavour.fair.home x).isSome
  | .done x => (Flavour.fair.home x).isSome
  | _ => true

end Entry

namespace DedupQueue
variable [DecidableEq α]

theorem done_eq_self {q : DedupQueue α} {x : α} (h : x ∉ q.processing) : q.done x = (false, q) :=
  if_neg h

end DedupQueue

namespace WorkQueue

def part (q : WorkQueue α) (t : String) : DedupQueue α := (q.parts.lookup t).getD {}

def plain (name : String) (items : DedupQueue α) (shuttingDown : Bool) : WorkQueue α :=
  .fifo ⟨name, items, shuttingDown⟩

theorem Implements.part_eq {q : WorkQueue α} {r : Rota α} (h : q.Implements r) (t : String) :
    q.part t = r.part t := by
  rw [part, h.parts_eq, Rota.part]

theorem part_eq_empty {q : WorkQueue α} {t : String} (h : t ∉ q.parts.map Prod.fst) :
    q.part t = {} := by
  have hn : q.parts.lookup t = none := by
    refine List.lookup_eq_none_iff.2 fun e he => ?_
    simpa using fun ht : t = e.1 => h (ht ▸ List.mem_map_of_mem he)
  rw [part, hn]
  rfl

variable [WorkItem α] [DecidableEq α] {q : WorkQueue α} {x : α} {t : String}

theorem Sound.part_add (h : q.Sound) (x : α) (t : String) :
    (q.add x).1.part t = if q.home x = some t then (q.part t).add x else q.part t := by
  cases hx : q.home x with
  | none => simp [(q.rejects hx).1.1]
  | some s =>
    obtain ⟨r, hi, hr⟩ := h
    rw [(hi.add hx).1.part_eq, hi.part_eq, Rota.put_eq, Rota.part_withPart]
    by_cases ht : t = s
    · simp [ht]
    · simp [ht, Ne.symm ht]

theorem Sound.part_done (h : q.Sound) (x : α) (t : String) :
    (q.done x).1.part t = if q.home x = some t then ((q.part t).done x).2 else q.part t := by
  cases hx : q.home x with
  | none => simp [(q.rejects hx).2.1]
  | some s =>
    obtain ⟨r, hi, hr⟩ := h
    rw [(hi.done hx).1.part_eq, hi.part_eq, Rota.part_finish]
    by_cases ht : t = s
    · simp [ht]
    · simp [ht, Ne.symm ht]

/-- An item is taken from the front of its own tenant's queue. -/
theorem Sound.part_get (h : q.Sound) (hg : q.get.1 = .item x) :
    ∃ s rest, q.home x = some s ∧ (q.part s).get? = some (x, rest) ∧
      ∀ t, q.get.2.1.part t = if t = s then rest else q.part t := by
  obtain ⟨r, hi, hr⟩ := h
  obtain ⟨i, s, rest, hs, hx⟩ := hi.serving hr hg
  refine ⟨s, rest, hx, by rw [hi.part_eq, hs.taken], fun t => ?_⟩
  rw [(hi.get hr).2.1.part_eq, hi.part_eq, hs.left, Rota.part_withPart]

omit [WorkItem α] [DecidableEq α] in
theorem part_shutDown (q : WorkQueue α) (t : String) : q.shutDown.1.part t = q.part t := by
  rw [part, parts_shutDown, ← part]

theorem counts_add (hx : q.home x = some t) : (q.add x).2.counts = [.adds] := by
  cases q with
  | fair q => simp [add, FairQueue.add, tenant_of_home hx]
  | fifo q => rfl

theorem Sound.counts_done (h : q.Sound) (hx : q.home x = some t) :
    (q.done x).2.counts = if ((q.part t).done x).1 then [.requeues] else [] := by
  obtain ⟨r, hi, hr⟩ := h
  rw [hi.part_eq, ← Rota.finish_fst]
  cases hi with
  | fair name r =>
    simp only [WorkQueue.done, effects_done, Rota.effects, tenant_of_home hx]
    split <;> rfl
  | fifo name items served down =>
    cases hx
    simp only [WorkQueue.done, FifoQueue.done, Rota.finish, List.lookup_cons, beq_self_eq_true]
    split <;> rfl

omit [WorkItem α] in
theorem counts_get (q : WorkQueue α) :
    q.get.2.2.counts = match q.get.1 with
      | .item _ => [.gets]
      | _ => [] := by
  cases q with
  | fair q =>
    simp only [get, FairQueue.get]
    split
    · rfl
    · split <;> rfl
  | fifo q =>
    simp only [get, FifoQueue.get]
    split
    · rfl
    · split <;> rfl

def entry (q : WorkQueue α) (call : Call α) : Entry α where
  call
  answer := (q.answer call).1
  counts := (q.answer call).2.2.counts
  size := (q.after call).size
  shuttingDown := (q.after call).shuttingDown

def journal : List (Call α) → WorkQueue α → List (Entry α)
  | [], _ => []
  | call :: calls, q => q.entry call :: journal calls (q.after call)

theorem run_cons (call : Call α) (calls : List (Call α)) (q : WorkQueue α) :
    run (call :: calls) q = run calls (q.after call) := rfl

section Plain
variable (name : String) (items : DedupQueue α) (down : Bool)

omit [WorkItem α] in
theorem plain_get_some {rest : DedupQueue α} (h : items.get? = some (x, rest)) :
    (plain name items false).get = (.item x, plain name rest false, { counts := [.gets] }) := by
  simp [get, plain, FifoQueue.get, h]

theorem counts_plain_done (x : α) :
    ((plain name items down).done x).2.counts =
      if (items.done x).1 then [.requeues] else [] := by
  simp only [done, plain, FifoQueue.done]
  split <;> rfl

end Plain

/-- A call goes the same way on both queues, and leaves the first a plain queue that holds what the
second holds of a tenant. -/
structure Alike (p q : WorkQueue α) (call : Call α) (name t : String) (down : Bool) : Prop where
  answer : (p.answer call).1 = (q.answer call).1
  counts : (p.answer call).2.2.counts = (q.answer call).2.2.counts
  after : p.after call = plain name ((q.after call).part t) down

theorem Alike.outcome_eq {p : WorkQueue α} {call : Call α} {name : String} {down : Bool}
    (h : Alike p q call name t down) : (p.entry call).outcome = (q.entry call).outcome := by
  simp only [entry, Entry.outcome, h.answer, h.counts]

theorem Sound.add_alike (h : q.Sound) (hx : q.home x = some t) (name : String) (down : Bool) :
    Alike (plain name (q.part t) down) q (.add x) name t down where
  answer := rfl
  counts := (counts_add hx).symm
  after := by
    have hp : (q.after (.add x)).part t = (q.part t).add x := (h.part_add x t).trans (if_pos hx)
    rw [hp]
    rfl

theorem Sound.done_alike (h : q.Sound) (hx : q.home x = some t) (name : String) (down : Bool) :
    Alike (plain name (q.part t) down) q (.done x) name t down where
  answer := rfl
  counts := (counts_plain_done name (q.part t) down x).trans (h.counts_done hx).symm
  after := by
    have hp : (q.after (.done x)).part t = ((q.part t).done x).2 :=
      (h.part_done x t).trans (if_pos hx)
    rw [hp]
    rfl

theorem Sound.get_alike (h : q.Sound) (hg : q.get.1 = .item x) (hx : q.home x = some t)
    (name : String) : Alike (plain name (q.part t) false) q .get name t false := by
  obtain ⟨s, rest, hs, htaken, hpart⟩ := h.part_get hg
  cases hx.symm.trans hs
  have hplain := plain_get_some name (q.part t) htaken
  constructor
  · simp only [WorkQueue.answer, hplain, hg]
  · simp only [WorkQueue.answer, hplain, counts_get, hg]
  · have hp : (q.after .get).part t = rest := (hpart t).trans (if_pos rfl)
    rw [hp]
    exact congrArg (·.2.1) hplain

/-- A call that concerns a tenant could have been made on a queue of its own. -/
theorem Sound.own_alike (h : q.Sound) (hf : q.flavour = .fair) (name : String) {call : Call α}
    (hc : (q.entry call).concerns t = true) :
    Alike (plain name (q.part t) false) q call name t false := by
  have hhome : q.home = Flavour.fair.home := congrArg Flavour.home hf
  cases call with
  | add x => exact h.add_alike (hhome ▸ beq_iff_eq.1 hc) name false
  | get =>
    cases hg : q.get.1 with
    | item x =>
      refine h.get_alike hg ?_ name
      simpa [Entry.concerns, entry, WorkQueue.answer, hg, hhome] using hc
    | closed => simp [Entry.concerns, entry, WorkQueue.answer, hg] at hc
    | blocked => simp [Entry.concerns, entry, WorkQueue.answer, hg] at hc
  | done x => exact h.done_alike (hhome ▸ beq_iff_eq.1 hc) name false
  | shutDown => cases hc

/-- Any other call leaves the tenant's items alone. -/
theorem Sound.part_other (h : q.Sound) (hf : q.flavour = .fair) {call : Call α}
    (hc : (q.entry call).concerns t = false) : (q.after call).part t = q.part t := by
  have hhome : q.home = Flavour.fair.home := congrArg Flavour.home hf
  cases call with
  | add x =>
    have hx : q.home x ≠ some t := hhome ▸ beq_eq_false_iff_ne.1 hc
    exact (h.part_add x t).trans (if_neg hx)
  | get =>
    cases hg : q.get.1 with
    | item x =>
      obtain ⟨s, rest, hs, -, hpart⟩ := h.part_get hg
      have hx : q.home x ≠ some t := by
        simpa [Entry.concerns, entry, answer, hg, hhome] using hc
      refine (hpart t).trans (if_neg ?_)
      rintro rfl
      exact hx hs
    | closed => exact congrArg (part · t) (h.get_eq_self (by simp [hg]))
    | blocked => exact congrArg (part · t) (h.get_eq_self (by simp [hg]))
  | done x =>
    have hx : q.home x ≠ some t := hhome ▸ beq_eq_false_iff_ne.1 hc
    exact (h.part_done x t).trans (if_neg hx)
  | shutDown => exact part_shutDown q t

/-- A tenant's calls, made again on a plain queue. -/
theorem Sound.replay (h : q.Sound) (hf : q.flavour = .fair) (name t : String)
    (calls : List (Call α)) :
    let own := (q.journal calls).filter (Entry.concerns t)
    let alone := plain name (q.part t) false
    (alone.journal (own.map Entry.call)).map Entry.outcome = own.map Entry.outcome ∧
      alone.run (own.map Entry.call) = plain name ((q.run calls).part t) false := by
  induction calls generalizing q with
  | nil => exact ⟨rfl, rfl⟩
  | cons call calls ih =>
    obtain ⟨hjournal, hrun⟩ := ih (h.after call) ((flavour_after q call).trans hf)
    cases hc : (q.entry call).concerns t with
    | true =>
      have hown := h.own_alike hf name hc
      have hcall : (q.entry call).call = call := rfl
      simp only [journal, List.filter_cons, hc, if_true, List.map_cons, hcall, hown.after,
        hown.outcome_eq, hjournal, run_cons, true_and]
      exact hrun
    | false =>
      simp only [journal, List.filter_cons, hc, Bool.false_eq_true, if_false]
      rw [← h.part_other hf hc]
      exact ⟨hjournal, hrun⟩

structure Sole (t : String) (q : WorkQueue α) : Prop where
  sound : q.Sound
  fair : q.flavour = .fair
  only : ∀ s ∈ q.parts.map Prod.fst, s = t

namespace Sole
variable {call : Call α}

omit [DecidableEq α] in
theorem home_eq (h : q.Sole t) : q.home = Flavour.fair.home := congrArg Flavour.home h.fair

omit [DecidableEq α] in
theorem size_eq (h : q.Sole t) : q.size = (q.part t).size := by
  obtain ⟨r, hi, hr⟩ := h.sound
  have hkeys : r.keys = List.replicate r.keys.length t :=
    List.eq_replicate_iff.2 ⟨rfl, fun s hs => h.only s (hi.parts_eq ▸ hs)⟩
  have hnodup : (List.replicate r.keys.length t).Nodup := by
    rw [← hkeys]
    exact hr.keys_nodup
  have hle : r.keys.length ≤ 1 := List.nodup_replicate.1 hnodup
  rw [hi.size_eq, hi.part_eq, Rota.size, Rota.part]
  cases ht : r.tenants with
  | nil => rfl
  | cons e rest =>
    have he : e.1 = t := h.only e.1 (by simp [hi.parts_eq, ht])
    have hrest : rest = [] := by
      rw [Rota.keys, ht, List.length_map, List.length_cons] at hle
      exact List.length_eq_zero_iff.1 (by omega)
    subst hrest
    rw [List.lookup_cons, beq_iff_eq.2 he.symm]
    simp

theorem after (h : q.Sole t) (hadd : ∀ x s, call = .add x → Flavour.fair.home x = some s → s = t) :
    (q.after call).Sole t where
  sound := h.sound.after call
  fair := (flavour_after q call).trans h.fair
  only s hs := by
    obtain ⟨r, hi, hr⟩ := h.sound
    have hkeys : s ∈ (r.after q.home call).keys := by
      rwa [(hi.after hr call).parts_eq] at hs
    have hold : s ∈ r.keys → s = t := fun hm => h.only s (hi.parts_eq ▸ hm)
    rw [Rota.keys_after_eq hr, h.home_eq] at hkeys
    cases hb : call.brings? Flavour.fair.home with
    | none => exact hold (by simpa [hb] using hkeys)
    | some u =>
      have hu : u = t := by
        cases call with
        | add x => exact hadd x u rfl hb
        | _ => cases hb
      simp only [hb] at hkeys
      split at hkeys
      · exact hold hkeys
      · cases List.mem_append.1 hkeys with
        | inl hm => exact hold hm
        | inr hm => exact (List.mem_singleton.1 hm).trans hu

theorem entry_eq (h : (q.after call).Sole t) {p : WorkQueue α} {name : String}
    (ha : Alike p q call name t (q.after call).shuttingDown) : p.entry call = q.entry call := by
  simp only [entry, ha.answer, ha.counts, ha.after, h.size_eq]
  rfl

theorem get_blocked (h : q.Sole t) (hg : q.get.1 = .blocked) : (q.part t).waiting = [] := by
  have hsize := h.size_eq
  rw [(h.sound.get_blocked hg).2] at hsize
  exact List.length_eq_zero_iff.1 hsize.symm

/-- An item of another tenant was never handed out. -/
theorem done_other (h : q.Sole t) {s : String} (hx : q.home x = some s) (hst : s ≠ t) :
    (q.part t).done x = (false, q.part t) ∧ (q.part s).done x = (false, {}) := by
  constructor
  · refine DedupQueue.done_eq_self fun hm => ?_
    obtain ⟨r, hi, hr⟩ := h.sound
    rw [hi.part_eq] at hm
    exact hst (Option.some.inj (hx.symm.trans (hr.at_home t x (.inr hm))))
  · rw [part_eq_empty fun hm => hst (h.only s hm)]
    exact DedupQueue.done_eq_self List.not_mem_nil

theorem get_alike (h : q.Sole t) (name : String) :
    Alike (plain name (q.part t) q.shuttingDown) q .get name t q.shuttingDown := by
  cases hd : q.shuttingDown with
  | true =>
    have hself : q.after .get = q := congrArg (·.2.1) (get_of_shuttingDown hd)
    have hplain : (plain name (q.part t) true).get = (.closed, plain name (q.part t) true, {}) :=
      get_of_shuttingDown rfl
    constructor
    · simp only [answer, hplain, get_of_shuttingDown hd]
    · simp only [answer, hplain, get_of_shuttingDown hd]
    · rw [hself]
      exact congrArg (·.2.1) hplain
  | false =>
    cases hg : q.get.1 with
    | item x =>
      obtain ⟨s, rest, hs, htaken, -⟩ := h.sound.part_get hg
      refine h.sound.get_alike hg (hs.trans (congrArg some ?_)) name
      by_contra hne
      rw [part_eq_empty fun hm => hne (h.only s hm)] at htaken
      cases htaken
    | closed => simp [h.sound.get_closed hg] at hd
    | blocked =>
      have hnone : (q.part t).get? = none := DedupQueue.get?_eq_none.2 (h.get_blocked hg)
      have hplain : (plain name (q.part t) false).get =
          (.blocked, plain name (q.part t) false, {}) := by
        simp [get, plain, FifoQueue.get, hnone]
      have hself : q.after .get = q := h.sound.get_eq_self (by simp [hg])
      constructor
      · simp only [answer, hplain, hg]
      · simp only [answer, hplain, counts_get, hg]
      · rw [hself]
        exact congrArg (·.2.1) hplain

/-- A call that is not dropped could have been made on a plain queue. -/
theorem alike (h : q.Sole t) (name : String)
    (hadd : ∀ x s, call = .add x → Flavour.fair.home x = some s → s = t)
    (ha : (q.entry call).accepted = true) :
    Alike (plain name (q.part t) q.shuttingDown) q call name t (q.after call).shuttingDown := by
  cases call with
  | add x =>
    obtain ⟨s, hs⟩ := Option.isSome_iff_exists.1 ha
    cases hadd x s rfl hs
    rw [show (q.after (.add x)).shuttingDown = _ from shuttingDown_add q x]
    exact h.sound.add_alike (h.home_eq ▸ hs) name q.shuttingDown
  | get =>
    rw [show (q.after .get).shuttingDown = _ from shuttingDown_get q]
    exact h.get_alike name
  | done x =>
    obtain ⟨s, hs⟩ := Option.isSome_iff_exists.1 ha
    have hx : q.home x = some s := h.home_eq ▸ hs
    rw [show (q.after (.done x)).shuttingDown = _ from shuttingDown_done q x]
    by_cases hst : s = t
    · exact h.sound.done_alike (hst ▸ hx) name q.shuttingDown
    · obtain ⟨hown, hother⟩ := h.done_other hx hst
      have hcounts := h.sound.counts_done hx
      rw [hother] at hcounts
      have hp : (q.after (.done x)).part t = q.part t :=
        (h.sound.part_done x t).trans (if_neg fun e => hst (Option.some.inj (hx.symm.trans e)))
      constructor
      · rfl
      · refine (counts_plain_done ..).trans ?_
        rw [hown]
        exact hcounts.symm
      · rw [hp]
        exact congrArg (plain name · q.shuttingDown) (congrArg Prod.snd hown)
  | shutDown =>
    constructor
    · rfl
    · cases q <;> rfl
    · rw [show (q.after .shutDown).part t = _ from part_shutDown q t,
        show (q.after .shutDown).shuttingDown = true from shuttingDown_shutDown q]
      rfl

theorem after_dropped (h : q.Sole t) (ha : (q.entry call).accepted = false) :
    q.after call = q := by
  cases call with
  | add x =>
    have hx : Flavour.fair.home x = none := by simpa [Entry.accepted, entry] using ha
    exact (q.rejects (h.home_eq ▸ hx)).1.1
  | done x =>
    have hx : Flavour.fair.home x = none := by simpa [Entry.accepted, entry] using ha
    exact (q.rejects (h.home_eq ▸ hx)).2.1
  | get => cases ha
  | shutDown => cases ha

/-- A queue that drops the other tenants' items is, for the rest, a plain queue. -/
theorem journal_plain (h : q.Sole t) (name : String) (calls : List (Call α))
    (hadd : ∀ x s, .add x ∈ calls → Flavour.fair.home x = some s → s = t) :
    let kept := (q.journal calls).filter Entry.accepted
    (plain name (q.part t) q.shuttingDown).journal (kept.map Entry.call) = kept := by
  induction calls generalizing q with
  | nil => rfl
  | cons call calls ih =>
    have hcall : ∀ x s, call = .add x → Flavour.fair.home x = some s → s = t :=
      fun x s hx => hadd x s (hx ▸ List.mem_cons_self)
    have hrest := ih (h.after hcall) fun x s hm => hadd x s (List.mem_cons_of_mem _ hm)
    cases ha : (q.entry call).accepted with
    | true =>
      have halike := h.alike name hcall ha
      simp only [journal, List.filter_cons, ha, if_true, List.map_cons]
      rw [show (q.entry call).call = call from rfl, (h.after hcall).entry_eq halike, halike.after]
      exact congrArg (List.cons _) hrest
    | false =>
      have hself : q.after call = q := h.after_dropped ha
      simp only [journal, List.filter_cons, ha, Bool.false_eq_true, if_false]
      rw [hself] at hrest ⊢
      exact hrest

end Sole

/-- The calls of a run that concern one tenant, made alone on a plain queue, are answered alike, put
the same items back, and leave the items of the tenant as they are. If every item that is accepted
is the tenant's, then the whole run but for the dropped calls is a run of a plain queue. -/
theorem tenants_isolated (name plainName : Option String) (calls : List (Call α)) (t : String) :
    let fair : WorkQueue α := .empty .fair name
    let fifo : WorkQueue α := .empty .fifo plainName
    let own := (fair.journal calls).filter (Entry.concerns t)
    let kept := (fair.journal calls).filter Entry.accepted
    (fifo.journal (own.map Entry.call)).map Entry.outcome = own.map Entry.outcome ∧
      (∃ f, fifo.run (own.map Entry.call) = .fifo f ∧ f.items = (fair.run calls).part t) ∧
      ((∀ x s, .add x ∈ calls → Flavour.fair.home x = some s → s = t) →
        fifo.journal (kept.map Entry.call) = kept) := by
  intro fair fifo own kept
  have hsound : fair.Sound := sound_empty .fair name
  have hparts : fair.parts = [] := by cases name <;> rfl
  have hdown : fair.shuttingDown = false := by cases name <;> rfl
  obtain ⟨n, hplain⟩ : ∃ n, fifo = plain n (fair.part t) false := by
    rw [part_eq_empty (by simp [hparts])]
    cases plainName with
    | none => exact ⟨_, rfl⟩
    | some n => exact ⟨n, rfl⟩
  obtain ⟨hjournal, hrun⟩ := hsound.replay (flavour_empty .fair name) n t calls
  rw [← hplain] at hjournal hrun
  refine ⟨hjournal, ⟨_, hrun, rfl⟩, fun hadd => ?_⟩
  have hsole : fair.Sole t := ⟨hsound, flavour_empty .fair name, by simp [hparts]⟩
  have h := hsole.journal_plain n calls hadd
  rwa [hdown, ← hplain] at h

end WorkQueue

end TenantQueue.Queue
