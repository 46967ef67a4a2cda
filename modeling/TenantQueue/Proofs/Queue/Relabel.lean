import TenantQueue.Proofs.Key
import TenantQueue.Proofs.Queue.Isolation

/-! Queues of different items that schedule alike. A function that keeps the tenants of items, and
tells those of one tenant apart, carries every run of a fair queue over to a run with the items it
takes them to. The text of a key that has a tenant is such a function. -/
namespace TenantQueue.Queue
open Telemetry
variable {α β : Type} {f : α → β}

namespace DedupQueue

def map (f : α → β) (q : DedupQueue α) : DedupQueue β :=
  ⟨q.waiting.map f, q.dirty.map f, q.processing.map f⟩

def Tells (f : α → β) (q : DedupQueue α) (x : α) : Prop :=
  ∀ y, y ∈ q.dirty ∨ y ∈ q.processing → f y = f x → y = x

theorem mem_map_iff {x : α} {l : List α} (h : ∀ y ∈ l, f y = f x → y = x) :
    f x ∈ l.map f ↔ x ∈ l := by
  refine ⟨fun hm => ?_, List.mem_map_of_mem⟩
  obtain ⟨y, hy, he⟩ := List.mem_map.1 hm
  exact h y hy he ▸ hy

variable {q : DedupQueue α} {x : α}

theorem Tells.mem_dirty (h : q.Tells f x) : f x ∈ (q.map f).dirty ↔ x ∈ q.dirty :=
  mem_map_iff fun y hy => h y (.inl hy)

theorem Tells.mem_processing (h : q.Tells f x) : f x ∈ (q.map f).processing ↔ x ∈ q.processing :=
  mem_map_iff fun y hy => h y (.inr hy)

variable [DecidableEq α] [DecidableEq β]

theorem filter_map_ne {l : List α} (h : ∀ y ∈ l, f y = f x → y = x) :
    (l.map f).filter (· ≠ f x) = (l.filter (· ≠ x)).map f := by
  rw [List.filter_map]
  refine congrArg (List.map f) (List.filter_congr fun y hy => ?_)
  exact decide_eq_decide.2 (not_congr ⟨h y hy, congrArg f⟩)

theorem Tells.add (h : q.Tells f x) : (q.map f).add (f x) = (q.add x).map f := by
  simp only [DedupQueue.add, h.mem_dirty, h.mem_processing]
  split
  · rfl
  · split <;> simp [map]

theorem Tells.done (h : q.Tells f x) :
    (q.map f).done (f x) = ((q.done x).1, (q.done x).2.map f) := by
  have hrest : (q.map f).processing.filter (· ≠ f x) = (q.processing.filter (· ≠ x)).map f :=
    filter_map_ne fun y hy => h y (.inr hy)
  simp only [DedupQueue.done, h.mem_dirty, h.mem_processing, hrest]
  split
  · split <;> simp [map]
  · rfl

theorem map_get? (h : ∀ x ∈ q.waiting, q.Tells f x) :
    (q.map f).get? = q.get?.map fun taken => (f taken.1, taken.2.map f) := by
  cases hw : q.waiting with
  | nil => simp [get?, map, hw]
  | cons x rest =>
    have hx : q.Tells f x := h x (by simp [hw])
    have hdirty : (q.map f).dirty.filter (· ≠ f x) = (q.dirty.filter (· ≠ x)).map f :=
      filter_map_ne fun y hy => hx y (.inl hy)
    have hprocessing : (q.map f).processing.insert (f x) = (q.processing.insert x).map f := by
      by_cases hp : x ∈ q.processing
      · rw [List.insert_of_mem (hx.mem_processing.2 hp), List.insert_of_mem hp]
        rfl
      · rw [List.insert_of_not_mem (mt hx.mem_processing.1 hp), List.insert_of_not_mem hp]
        rfl
    have hwaiting : (q.map f).waiting = f x :: rest.map f := by simp [map, hw]
    simp only [get?, hw, hwaiting, hdirty, hprocessing, Option.map_some]
    rfl

end DedupQueue

namespace Ring
variable {κ ν μ : Type} [BEq κ]

theorem lookup_map (g : ν → μ) (k : κ) (es : List (κ × ν)) :
    (es.map fun e => (e.1, g e.2)).lookup k = (es.lookup k).map g := by
  induction es with
  | nil => rfl
  | cons e es ih =>
    rw [List.map_cons, List.lookup_cons, List.lookup_cons, ih]
    cases k == e.1 <;> rfl

theorem assign_map (g : ν → μ) (k : κ) (v : ν) (es : List (κ × ν)) :
    assign k (g v) (es.map fun e => (e.1, g e.2)) =
      (assign k v es).map fun e => (e.1, g e.2) := by
  induction es with
  | nil => rfl
  | cons e es ih =>
    rw [List.map_cons, assign, assign, ih]
    split <;> rfl

omit [BEq κ] in
theorem modify_map (g : ν → μ) (i : Nat) (v : ν) (es : List (κ × ν)) :
    (es.map fun e => (e.1, g e.2)).modify i (fun e => (e.1, g v)) =
      (es.modify i fun e => (e.1, v)).map fun e => (e.1, g e.2) := by
  ext1 j
  by_cases hj : i = j <;> simp [hj, Function.comp_def]

end Ring

def Taken.map (f : α → β) : Taken α → Taken β
  | .item x => .item (f x)
  | .closed => .closed
  | .blocked => .blocked

def Call.map (f : α → β) : Call α → Call β
  | .add x => .add (f x)
  | .get => .get
  | .done x => .done (f x)
  | .shutDown => .shutDown

def Call.item? : Call α → Option α
  | .add x => some x
  | .done x => some x
  | _ => none

def Call.Accepted (belongs : α → Option String) (call : Call α) : Prop :=
  ∀ x ∈ call.item?, ∃ t, belongs x = some t

/-- The function takes items to items of the same tenants, and no two of one tenant to the same. -/
structure Faithful (belongs : α → Option String) (belongs' : β → Option String) (f : α → β) :
    Prop where
  home {x : α} {t : String} : belongs x = some t → belongs' (f x) = some t
  inj {x y : α} {t : String} : belongs x = some t → belongs y = some t → f x = f y → x = y

namespace Rota
variable {belongs : α → Option String} {belongs' : β → Option String} {r : Rota α} {t : String}
  {x : α}

def map (f : α → β) (r : Rota α) : Rota β where
  tenants := r.tenants.map fun e => (e.1, e.2.map f)
  served := r.served
  shuttingDown := r.shuttingDown

theorem part_map (f : α → β) (r : Rota α) (t : String) : (r.map f).part t = (r.part t).map f := by
  rw [part, part, map, Ring.lookup_map]
  cases r.tenants.lookup t <;> rfl

theorem size_map (f : α → β) (r : Rota α) : (r.map f).size = r.size := by
  simp [size, map, Function.comp_def, DedupQueue.size, DedupQueue.map]

/-- An item is told apart from what its own tenant's queue holds. -/
theorem Sound.tells (h : r.Sound belongs) (hf : Faithful belongs belongs' f)
    (hx : belongs x = some t) : (r.part t).Tells f x :=
  fun y hy he => hf.inj (h.at_home t y hy) hx he

variable [DecidableEq α] [DecidableEq β]

theorem put_map (h : r.Sound belongs) (hf : Faithful belongs belongs' f)
    (hx : belongs x = some t) : (r.map f).put t (f x) = (r.put t x).map f := by
  simp only [put, part_map, (h.tells hf hx).add]
  simp only [map, Ring.assign_map]

theorem finish_map (h : r.Sound belongs) (hf : Faithful belongs belongs' f)
    (hx : belongs x = some t) :
    (r.map f).finish t (f x) = ((r.finish t x).1, (r.finish t x).2.map f) := by
  have hlookup : (r.map f).tenants.lookup t = (r.tenants.lookup t).map (DedupQueue.map f) :=
    Ring.lookup_map _ t r.tenants
  unfold finish
  rw [hlookup]
  cases hl : r.tenants.lookup t with
  | none => rfl
  | some items =>
    have htells := h.tells hf hx
    rw [part, hl, Option.getD_some] at htells
    simp only [Option.map_some, htells.done]
    simp only [map, Ring.assign_map]

theorem offer_map (h : r.Sound belongs) (hf : Faithful belongs belongs' f) (i : Nat) :
    (r.map f).offer i = (r.offer i).map fun offered => (f offered.1, offered.2.map f) := by
  have htenant : (r.map f).tenants[i]? = r.tenants[i]?.map fun e => (e.1, e.2.map f) :=
    List.getElem?_map
  unfold offer
  rw [htenant]
  cases he : r.tenants[i]? with
  | none => rfl
  | some e =>
    have htells : ∀ x ∈ e.2.waiting, e.2.Tells f x := by
      intro x hx
      rw [← part_of_mem h (List.mem_of_getElem? he)] at hx ⊢
      refine h.tells hf (h.at_home e.1 x (.inl ?_))
      exact (((h.part_sound e.1).mem_waiting x).1 hx).1
    simp only [Option.map_some, Option.bind_some, DedupQueue.map_get? htells, Option.map_map]
    refine congrArg (Option.map · e.2.get?) (funext fun taken => ?_)
    simp only [Function.comp_apply, map, Ring.modify_map]

theorem get_map (h : r.Sound belongs) (hf : Faithful belongs belongs' f) :
    (r.map f).get = (r.get.1.map f, r.get.2.map f) := by
  have horder : (r.map f).order = r.order := by simp [order, resting, map]
  have hoffer : (r.map f).offer =
      Option.map (fun offered => (f offered.1, offered.2.map f)) ∘ r.offer :=
    funext (offer_map h hf)
  have hdown : (r.map f).shuttingDown = r.shuttingDown := rfl
  unfold get
  rw [hdown, horder, hoffer, ← List.map_findSome?]
  split
  · rfl
  · cases r.order.findSome? r.offer <;> rfl

theorem after_map (h : r.Sound belongs) (hf : Faithful belongs belongs' f) {call : Call α}
    (hc : call.Accepted belongs) :
    (r.map f).after belongs' (call.map f) = (r.after belongs call).map f := by
  cases call with
  | add x =>
    obtain ⟨t, hx⟩ := hc x rfl
    simp only [Call.map, after, hx, hf.home hx, put_map h hf hx]
  | get => simp only [Call.map, after, get_map h hf]
  | done x =>
    obtain ⟨t, hx⟩ := hc x rfl
    simp only [Call.map, after, hx, hf.home hx, finish_map h hf hx]
  | shutDown => rfl

theorem answer_map (h : r.Sound belongs) (hf : Faithful belongs belongs' f) (call : Call α) :
    (r.map f).answer (call.map f) = (r.answer call).map (Taken.map f) := by
  cases call with
  | get => simp only [Call.map, answer, get_map h hf, Option.map_some]
  | _ => rfl

theorem run_map (h : r.Sound belongs) (hf : Faithful belongs belongs' f) {calls : List (Call α)}
    (hc : ∀ call ∈ calls, call.Accepted belongs) :
    (r.map f).run belongs' (calls.map (Call.map f)) = (r.run belongs calls).map f := by
  induction calls generalizing r with
  | nil => rfl
  | cons call calls ih =>
    obtain ⟨hcall, hcalls⟩ := List.forall_mem_cons.1 hc
    rw [run, List.map_cons, List.foldl_cons, after_map h hf hcall]
    exact ih (h.after call) hcalls

variable [WorkItem α] [WorkItem β]

theorem counts_map (h : r.Sound Flavour.fair.home)
    (hf : Faithful Flavour.fair.home Flavour.fair.home f) {call : Call α}
    (hc : call.Accepted Flavour.fair.home) (name name' : String) :
    ((r.map f).effects name' (call.map f)).counts = (r.effects name call).counts := by
  cases call with
  | add x =>
    obtain ⟨t, hx⟩ := hc x rfl
    simp only [Call.map, effects, WorkQueue.tenant_of_home hx,
      WorkQueue.tenant_of_home (hf.home hx)]
  | get =>
    simp only [Call.map, effects, get_map h hf]
    cases r.get.1 <;> rfl
  | done x =>
    obtain ⟨t, hx⟩ := hc x rfl
    simp only [Call.map, effects, WorkQueue.tenant_of_home hx,
      WorkQueue.tenant_of_home (hf.home hx), finish_map h hf hx]
  | shutDown => rfl

end Rota

def Entry.map (f : α → β) (e : Entry α) : Entry β :=
  ⟨e.call.map f, e.answer.map (Taken.map f), e.counts, e.size, e.shuttingDown⟩

namespace WorkQueue
variable [DecidableEq α] [DecidableEq β] [WorkItem α] [WorkItem β] {r : Rota α}

omit [DecidableEq β] [WorkItem β] in
theorem entry_toFair (name : String) (hr : r.Sound Flavour.fair.home) (call : Call α) :
    let r' := r.after Flavour.fair.home call
    (fair (r.toFair name)).entry call =
      ⟨call, r.answer call, (r.effects name call).counts, r'.size, r'.shuttingDown⟩ := by
  have hi : (fair ((r.after Flavour.fair.home call).toFair name)).Implements _ := .fair name _
  simp only [entry, after, answer_toFair name hr, hi.size_eq, hi.shuttingDown_eq]

theorem journal_map (hf : Faithful Flavour.fair.home Flavour.fair.home f) (name name' : String)
    (hr : r.Sound Flavour.fair.home) (hr' : (r.map f).Sound Flavour.fair.home)
    {calls : List (Call α)} (hc : ∀ call ∈ calls, call.Accepted Flavour.fair.home) :
    (fair ((r.map f).toFair name')).journal (calls.map (Call.map f)) =
      ((fair (r.toFair name)).journal calls).map (Entry.map f) := by
  induction calls generalizing r with
  | nil => rfl
  | cons call calls ih =>
    obtain ⟨hcall, hcalls⟩ := List.forall_mem_cons.1 hc
    have hafter := Rota.after_map hr hf hcall
    have hsound : ((r.after Flavour.fair.home call).map f).Sound Flavour.fair.home :=
      hafter ▸ hr'.after (call.map f)
    simp only [List.map_cons, journal, entry_toFair _ hr, entry_toFair _ hr', after,
      answer_toFair _ hr, answer_toFair _ hr', hafter, ih (hr.after call) hsound hcalls]
    simp only [Entry.map, Rota.answer_map hr hf, Rota.counts_map hr hf hcall name name',
      Rota.size_map]
    rfl

/-- A run with the items that the function takes the items to shows the same at every call, and
leaves the same queue, but for the items. -/
theorem run_alike (hf : Faithful Flavour.fair.home Flavour.fair.home f) (name name' : Option String)
    {calls : List (Call α)} (hc : ∀ call ∈ calls, call.Accepted Flavour.fair.home) :
    journal (calls.map (Call.map f)) (.empty .fair name') =
        (journal calls (.empty .fair name)).map (Entry.map f) ∧
      ∃ q p, run calls (.empty .fair name) = .fair q ∧
        run (calls.map (Call.map f)) (.empty .fair name') = .fair p ∧
        p.tenantCount = q.tenantCount ∧ p.tenants.cursor = q.tenants.cursor ∧
        p.tenants.entries = q.tenants.entries.map fun e => (e.1, e.2.map f) := by
  have hempty {γ : Type} (name : Option String) :
      ∃ n, (empty .fair name : WorkQueue γ) = .fair (({} : Rota γ).toFair n) := by
    cases name <;> exact ⟨_, rfl⟩
  obtain ⟨n, hn⟩ := hempty (γ := α) name
  obtain ⟨n', hn'⟩ := hempty (γ := β) name'
  have hr : ({} : Rota α).Sound Flavour.fair.home := Rota.sound_empty _
  have hr' : ({} : Rota β).Sound Flavour.fair.home := Rota.sound_empty _
  have hrun : Rota.run Flavour.fair.home (calls.map (Call.map f)) {} =
      (Rota.run Flavour.fair.home calls {}).map f := Rota.run_map hr hf hc
  rw [hn, hn']
  refine ⟨journal_map hf n n' hr hr' hc, _, _, run_toFair n hr calls,
    run_toFair n' hr' (calls.map (Call.map f)), ?_⟩
  rw [hrun]
  generalize Rota.run Flavour.fair.home calls {} = r
  refine ⟨?_, rfl, ?_⟩
  · simp only [FairQueue.tenantCount, Rota.toFair, Ring.size_ofEntries, Rota.map, List.length_map]
  · simp only [Rota.toFair, Ring.entries_ofEntries, Rota.map]

theorem faithful_text : Faithful Flavour.fair.home Flavour.fair.home ObjectKey.text where
  home hx := home_of_tenant (ObjectKey.tenantOf_text (tenant_of_home hx))
  inj hx hy := ObjectKey.text_injective (tenant_of_home hx) (tenant_of_home hy)

theorem accepted_of_slashless {call : Call ObjectKey}
    (h : ∀ key ∈ call.item?, '/' ∉ key.scope.toList ∧ '/' ∉ key.name.toList) :
    call.Accepted Flavour.fair.home := fun key hk =>
  ⟨key.scope, home_of_tenant (ObjectKey.tenant_eq_ok_iff.2 ⟨h key hk, rfl⟩)⟩

/-- Keys and their texts are scheduled alike. Where no key that is added or returned has a slash in
it, a fair queue of keys and one of their texts show the same at every call: the same answer, up to
the text of the item, the same counts, length and shutdown. At any time they have the same tenants
with the same items, and rest on the same tenant. -/
theorem texts_scheduled_alike (name name' : Option String) (calls : List (Call ObjectKey))
    (hkeys : ∀ call ∈ calls, ∀ key ∈ call.item?,
      '/' ∉ key.scope.toList ∧ '/' ∉ key.name.toList) :
    let typed : WorkQueue ObjectKey := .empty .fair name
    let texts : WorkQueue String := .empty .fair name'
    texts.journal (calls.map (Call.map ObjectKey.text)) =
        (typed.journal calls).map (Entry.map ObjectKey.text) ∧
      ∀ front, front <+: calls → ∃ q p, typed.run front = .fair q ∧
        texts.run (front.map (Call.map ObjectKey.text)) = .fair p ∧
        p.tenantCount = q.tenantCount ∧ p.tenants.cursor = q.tenants.cursor ∧
        p.tenants.entries = q.tenants.entries.map fun e => (e.1, e.2.map ObjectKey.text) := by
  intro typed texts
  have hc : ∀ call ∈ calls, call.Accepted Flavour.fair.home := fun call hm =>
    accepted_of_slashless (hkeys call hm)
  refine ⟨(run_alike faithful_text name name' hc).1, fun front hfront => ?_⟩
  exact (run_alike faithful_text name name' fun call hm => hc call (hfront.mem hm)).2

/-- Keys that differ only in which of their parts is empty have different texts. -/
theorem texts_scheduled_alike_empty_parts :
    let calls : List (Call ObjectKey) :=
      [.add ⟨"a", ""⟩, .add ⟨"", "a"⟩, .add ⟨"", ""⟩, .get, .add ⟨"a", ""⟩, .get, .done ⟨"a", ""⟩,
        .get, .get, .shutDown]
    let typed : WorkQueue ObjectKey := .empty .fair
    let texts : WorkQueue String := .empty .fair
    (∀ call ∈ calls, ∀ key ∈ call.item?, '/' ∉ key.scope.toList ∧ '/' ∉ key.name.toList) ∧
      (texts.journal (calls.map (Call.map ObjectKey.text))).filterMap Entry.answer =
        [.item "a/", .item "a", .item "a/", .item ""] ∧
      texts.journal (calls.map (Call.map ObjectKey.text)) =
        (typed.journal calls).map (Entry.map ObjectKey.text) ∧
      ∀ front, front <+: calls → ∃ q p, typed.run front = .fair q ∧
        texts.run (front.map (Call.map ObjectKey.text)) = .fair p ∧
        p.tenantCount = q.tenantCount ∧ p.tenants.cursor = q.tenants.cursor ∧
        p.tenants.entries = q.tenants.entries.map fun e => (e.1, e.2.map ObjectKey.text) := by
  intro calls typed texts
  have hkeys : ∀ call ∈ calls, ∀ key ∈ call.item?,
      '/' ∉ key.scope.toList ∧ '/' ∉ key.name.toList := by decide
  exact ⟨hkeys, by decide, texts_scheduled_alike none none calls hkeys⟩

end WorkQueue

end TenantQueue.Queue
