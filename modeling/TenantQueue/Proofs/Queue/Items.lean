import TenantQueue.Proofs.Queue.Implements

/-! What a call on a queue does to the items: which are dirty, which are being processed, and which
wait. Nothing else about the two kinds of queue is needed by those who use them. -/
namespace TenantQueue.Queue.WorkQueue
variable {α : Type}

def IsDirty (q : WorkQueue α) (x : α) : Prop := ∃ part ∈ q.parts, x ∈ part.2.dirty

def IsProcessing (q : WorkQueue α) (x : α) : Prop := ∃ part ∈ q.parts, x ∈ part.2.processing

instance [DecidableEq α] (q : WorkQueue α) (x : α) : Decidable (q.IsDirty x) :=
  inferInstanceAs (Decidable (∃ part ∈ q.parts, x ∈ part.2.dirty))

instance [DecidableEq α] (q : WorkQueue α) (x : α) : Decidable (q.IsProcessing x) :=
  inferInstanceAs (Decidable (∃ part ∈ q.parts, x ∈ part.2.processing))

def ready (q : WorkQueue α) : List α := q.parts.flatMap fun part => part.2.waiting

theorem ready_eq {q : WorkQueue α} {r : Rota α} (h : q.Implements r) : q.ready = r.ready := by
  rw [ready, h.parts_eq]
  rfl

theorem parts_shutDown (q : WorkQueue α) : q.shutDown.1.parts = q.parts := by
  cases q <;> rfl

theorem isDirty_shutDown (q : WorkQueue α) (x : α) : q.shutDown.1.IsDirty x ↔ q.IsDirty x := by
  unfold IsDirty
  rw [parts_shutDown]

theorem isProcessing_shutDown (q : WorkQueue α) (x : α) :
    q.shutDown.1.IsProcessing x ↔ q.IsProcessing x := by
  unfold IsProcessing
  rw [parts_shutDown]

theorem shuttingDown_shutDown (q : WorkQueue α) : q.shutDown.1.shuttingDown = true := by
  cases q <;> rfl

section Law
variable [WorkItem α]

def Sound (q : WorkQueue α) : Prop := ∃ r : Rota α, q.Implements r ∧ r.Sound q.home

variable {q : WorkQueue α} {r : Rota α}

theorem exists_part_iff (hr : r.Sound q.home) (P : DedupQueue α → Prop) (hP : ¬ P {}) :
    (∃ e ∈ r.tenants, P e.2) ↔ ∃ t, P (r.part t) := by
  constructor
  · rintro ⟨e, he, hx⟩
    exact ⟨e.1, (Rota.part_of_mem hr he).symm ▸ hx⟩
  · rintro ⟨t, hx⟩
    unfold Rota.part at hx
    cases hl : r.tenants.lookup t with
    | none => exact absurd (by simpa [hl] using hx) hP
    | some items =>
      obtain ⟨front, back, hs, -⟩ := List.lookup_eq_some_iff.1 hl
      exact ⟨(t, items), by simp [hs], by simpa [hl] using hx⟩

theorem isDirty_iff (h : q.Implements r) (hr : r.Sound q.home) (x : α) :
    q.IsDirty x ↔ ∃ t, x ∈ (r.part t).dirty := by
  unfold IsDirty
  rw [h.parts_eq]
  exact exists_part_iff hr (fun items => x ∈ items.dirty) (by simp)

theorem isProcessing_iff (h : q.Implements r) (hr : r.Sound q.home) (x : α) :
    q.IsProcessing x ↔ ∃ t, x ∈ (r.part t).processing := by
  unfold IsProcessing
  rw [h.parts_eq]
  exact exists_part_iff hr (fun items => x ∈ items.processing) (by simp)

theorem isDirty_iff_part (h : q.Implements r) (hr : r.Sound q.home) {x : α} {t : String}
    (ht : q.home x = some t) : q.IsDirty x ↔ x ∈ (r.part t).dirty := by
  rw [isDirty_iff h hr]
  refine ⟨fun ⟨s, hs⟩ => ?_, fun hx => ⟨t, hx⟩⟩
  cases ht.symm.trans (hr.at_home s x (.inl hs))
  exact hs

theorem isProcessing_iff_part (h : q.Implements r) (hr : r.Sound q.home) {x : α} {t : String}
    (ht : q.home x = some t) : q.IsProcessing x ↔ x ∈ (r.part t).processing := by
  rw [isProcessing_iff h hr]
  refine ⟨fun ⟨s, hs⟩ => ?_, fun hx => ⟨t, hx⟩⟩
  cases ht.symm.trans (hr.at_home s x (.inr hs))
  exact hs

/-- An item that is held by the queue is one that it accepts. -/
theorem Sound.accepts (h : q.Sound) {x : α} (hx : q.IsDirty x ∨ q.IsProcessing x) :
    ∃ t, q.home x = some t := by
  obtain ⟨r, hi, hr⟩ := h
  rw [isDirty_iff hi hr, isProcessing_iff hi hr] at hx
  cases hx with
  | inl h =>
    obtain ⟨t, hx⟩ := h
    exact ⟨t, hr.at_home t x (.inl hx)⟩
  | inr h =>
    obtain ⟨t, hx⟩ := h
    exact ⟨t, hr.at_home t x (.inr hx)⟩

theorem Sound.length_ready (h : q.Sound) : q.ready.length = q.size := by
  obtain ⟨r, hi, -⟩ := h
  rw [ready_eq hi, hi.size_eq, Rota.length_ready]

theorem Sound.ready_nodup (h : q.Sound) : q.ready.Nodup := by
  obtain ⟨r, hi, hr⟩ := h
  rw [ready_eq hi]
  exact Rota.ready_nodup hr

theorem Sound.mem_ready (h : q.Sound) (x : α) : x ∈ q.ready ↔ q.IsDirty x ∧ ¬ q.IsProcessing x := by
  by_cases hx : ∃ t, q.home x = some t
  · obtain ⟨t, ht⟩ := hx
    obtain ⟨r, hi, hr⟩ := h
    rw [ready_eq hi, Rota.mem_ready hr, isDirty_iff_part hi hr ht, isProcessing_iff_part hi hr ht,
      ← (hr.part_sound t).mem_waiting x]
    exact ⟨fun ⟨s, hs, hw⟩ => Option.some.inj (hs.symm.trans ht) ▸ hw, fun hw => ⟨t, ht, hw⟩⟩
  · have hd : ¬ q.IsDirty x := fun hd => hx (h.accepts (.inl hd))
    obtain ⟨r, hi, hr⟩ := h
    rw [ready_eq hi, Rota.mem_ready hr]
    exact ⟨fun ⟨t, ht, _⟩ => absurd ⟨t, ht⟩ hx, fun hd' => absurd hd'.1 hd⟩

theorem Sound.tenants_nodup (h : q.Sound) : (q.parts.map Prod.fst).Nodup := by
  obtain ⟨r, hi, hr⟩ := h
  rw [hi.parts_eq]
  exact hr.keys_nodup

theorem Sound.part_sound (h : q.Sound) {part : String × DedupQueue α} (hp : part ∈ q.parts) :
    part.2.Sound := by
  obtain ⟨r, hi, hr⟩ := h
  rw [hi.parts_eq] at hp
  exact Rota.part_of_mem hr hp ▸ hr.part_sound part.1

theorem Sound.mem_dirty (h : q.Sound) {part : String × DedupQueue α} (hp : part ∈ q.parts) (x : α) :
    x ∈ part.2.dirty ↔ q.home x = some part.1 ∧ q.IsDirty x := by
  obtain ⟨r, hi, hr⟩ := h
  rw [hi.parts_eq] at hp
  rw [← Rota.part_of_mem hr hp]
  refine ⟨fun hx => ?_, fun hx => (isDirty_iff_part hi hr hx.1).1 hx.2⟩
  have ht := hr.at_home part.1 x (.inl hx)
  exact ⟨ht, (isDirty_iff_part hi hr ht).2 hx⟩

theorem Sound.mem_processing (h : q.Sound) {part : String × DedupQueue α} (hp : part ∈ q.parts)
    (x : α) : x ∈ part.2.processing ↔ q.home x = some part.1 ∧ q.IsProcessing x := by
  obtain ⟨r, hi, hr⟩ := h
  rw [hi.parts_eq] at hp
  rw [← Rota.part_of_mem hr hp]
  refine ⟨fun hx => ?_, fun hx => (isProcessing_iff_part hi hr hx.1).1 hx.2⟩
  have ht := hr.at_home part.1 x (.inr hx)
  exact ⟨ht, (isProcessing_iff_part hi hr ht).2 hx⟩

/-- Nothing waits that a part does not show. -/
theorem Sound.size_eq_zero (h : q.Sound) :
    q.size = 0 ↔ ∀ x, ¬ (q.IsDirty x ∧ ¬ q.IsProcessing x) := by
  rw [← h.length_ready, List.length_eq_zero_iff, List.eq_nil_iff_forall_not_mem]
  exact forall_congr' fun x => not_congr (h.mem_ready x)

structure Replaces (q q' : WorkQueue α) (t : String) (items items' : DedupQueue α) : Prop where
  home_eq : q'.home = q.home
  shuttingDown_eq : q'.shuttingDown = q.shuttingDown
  parts : ∃ r r' : Rota α,
    (q.Implements r ∧ r.Sound q.home) ∧ (q'.Implements r' ∧ r'.Sound q.home) ∧
    r.part t = items ∧ ∀ s, r'.part s = if s = t then items' else r.part s
  size_add : q'.size + items.size = q.size + items'.size

namespace Replaces
variable {q' : WorkQueue α} {t : String} {items items' : DedupQueue α} {x : α}

theorem sound (h : q.Replaces q' t items items') : q'.Sound := by
  obtain ⟨-, r', -, ⟨hi, hr⟩, -⟩ := h.parts
  exact ⟨r', hi, h.home_eq ▸ hr⟩

theorem items_sound (h : q.Replaces q' t items items') : items.Sound := by
  obtain ⟨r, -, ⟨-, hr⟩, -, rfl, -⟩ := h.parts
  exact hr.part_sound t

theorem isDirty_before (h : q.Replaces q' t items items') (hx : q.home x = some t) :
    q.IsDirty x ↔ x ∈ items.dirty := by
  obtain ⟨r, -, ⟨hi, hr⟩, -, rfl, -⟩ := h.parts
  exact isDirty_iff_part hi hr hx

theorem isProcessing_before (h : q.Replaces q' t items items') (hx : q.home x = some t) :
    q.IsProcessing x ↔ x ∈ items.processing := by
  obtain ⟨r, -, ⟨hi, hr⟩, -, rfl, -⟩ := h.parts
  exact isProcessing_iff_part hi hr hx

theorem isDirty_after (h : q.Replaces q' t items items') (hx : q.home x = some t) :
    q'.IsDirty x ↔ x ∈ items'.dirty := by
  obtain ⟨r, r', -, ⟨hi, hr⟩, -, hp⟩ := h.parts
  rw [isDirty_iff_part hi (h.home_eq ▸ hr) (h.home_eq ▸ hx), hp, if_pos rfl]

theorem isProcessing_after (h : q.Replaces q' t items items') (hx : q.home x = some t) :
    q'.IsProcessing x ↔ x ∈ items'.processing := by
  obtain ⟨r, r', -, ⟨hi, hr⟩, -, hp⟩ := h.parts
  rw [isProcessing_iff_part hi (h.home_eq ▸ hr) (h.home_eq ▸ hx), hp, if_pos rfl]

/-- A property that puts an item into its tenant's part is kept by the other parts. -/
theorem exists_part_other {r r' : Rota α} (P : DedupQueue α → Prop)
    (hp : ∀ s, r'.part s = if s = t then items' else r.part s)
    (hr : ∀ s, P (r.part s) → q.home x = some s) (hr' : ∀ s, P (r'.part s) → q.home x = some s)
    (hx : q.home x ≠ some t) : (∃ s, P (r'.part s)) ↔ ∃ s, P (r.part s) := by
  refine exists_congr fun s => ?_
  by_cases hs : s = t
  · subst hs
    exact ⟨fun hd => absurd (hr' s hd) hx, fun hd => absurd (hr s hd) hx⟩
  · rw [hp, if_neg hs]

theorem isDirty_other (h : q.Replaces q' t items items') (hx : q.home x ≠ some t) :
    q'.IsDirty x ↔ q.IsDirty x := by
  obtain ⟨r, r', ⟨hi, hr⟩, ⟨hi', hr'⟩, -, hp⟩ := h.parts
  rw [isDirty_iff hi hr, isDirty_iff hi' (h.home_eq ▸ hr')]
  exact exists_part_other (fun items => x ∈ items.dirty) hp
    (fun s hd => hr.at_home s x (.inl hd)) (fun s hd => hr'.at_home s x (.inl hd)) hx

theorem isProcessing_other (h : q.Replaces q' t items items') (hx : q.home x ≠ some t) :
    q'.IsProcessing x ↔ q.IsProcessing x := by
  obtain ⟨r, r', ⟨hi, hr⟩, ⟨hi', hr'⟩, -, hp⟩ := h.parts
  rw [isProcessing_iff hi hr, isProcessing_iff hi' (h.home_eq ▸ hr')]
  exact exists_part_other (fun items => x ∈ items.processing) hp
    (fun s hd => hr.at_home s x (.inr hd)) (fun s hd => hr'.at_home s x (.inr hd)) hx

end Replaces

theorem home_shutDown (q : WorkQueue α) : q.shutDown.1.home = q.home := by
  rw [home, flavour_shutDown, ← home]

theorem Sound.shutDown (h : q.Sound) : q.shutDown.1.Sound := by
  obtain ⟨r, hi, hr⟩ := h
  refine ⟨r.shutDown, hi.shutDown.1, ?_⟩
  rw [home_shutDown]
  exact hr.shutDown

section Calls
variable [DecidableEq α] {x : α} {t : String}

theorem home_add (q : WorkQueue α) (x : α) : (q.add x).1.home = q.home := by
  rw [home, flavour_add, ← home]

theorem home_get (q : WorkQueue α) : q.get.2.1.home = q.home := by
  rw [home, flavour_get, ← home]

theorem home_done (q : WorkQueue α) (x : α) : (q.done x).1.home = q.home := by
  rw [home, flavour_done, ← home]

theorem shuttingDown_add (q : WorkQueue α) (x : α) :
    (q.add x).1.shuttingDown = q.shuttingDown := by
  cases q with
  | fair q => simp only [add, FairQueue.add, shuttingDown]; split <;> rfl
  | fifo q => rfl

omit [WorkItem α] in
theorem shuttingDown_get (q : WorkQueue α) : q.get.2.1.shuttingDown = q.shuttingDown := by
  cases q with
  | fair q =>
    simp only [get, FairQueue.get, shuttingDown]
    split
    · rfl
    · split <;> rfl
  | fifo q =>
    simp only [get, FifoQueue.get, shuttingDown]
    split
    · rfl
    · split <;> rfl

theorem shuttingDown_done (q : WorkQueue α) (x : α) :
    (q.done x).1.shuttingDown = q.shuttingDown := by
  cases q with
  | fair q =>
    simp only [done, FairQueue.done, shuttingDown]
    split
    · rfl
    · split <;> rfl
  | fifo q => rfl

omit [WorkItem α] in
/-- A queue that is shutting down hands nothing out, whatever it holds. -/
theorem get_of_shuttingDown (hd : q.shuttingDown = true) : q.get = (.closed, q, {}) := by
  cases q with
  | fair q => simp only [get, FairQueue.get, show q.shuttingDown = true from hd, if_true]
  | fifo q => simp only [get, FifoQueue.get, show q.shuttingDown = true from hd, if_true]

theorem Sound.add_replaces (h : q.Sound) (ht : q.home x = some t) :
    ∃ items, q.Replaces (q.add x).1 t items (items.add x) := by
  obtain ⟨r, hi, hr⟩ := h
  obtain ⟨hi', -⟩ := hi.add ht
  refine ⟨r.part t, home_add q x, shuttingDown_add q x,
    ⟨r, r.put t x, ⟨hi, hr⟩, ⟨hi', hr.put ht⟩, rfl, fun s => Rota.part_withPart ..⟩, ?_⟩
  rw [hi'.size_eq, hi.size_eq]
  exact Rota.size_withPart ..

theorem Sound.done_replaces (h : q.Sound) (ht : q.home x = some t) :
    ∃ items, q.Replaces (q.done x).1 t items (items.done x).2 ∧
      (q.done x).2.signal = if (items.done x).1 then wake q.flavour else .none := by
  obtain ⟨r, hi, hr⟩ := h
  obtain ⟨hi', hs⟩ := hi.done ht
  rw [Rota.finish_fst] at hs
  refine ⟨r.part t, ⟨home_done q x, shuttingDown_done q x,
    ⟨r, (r.finish t x).2, ⟨hi, hr⟩, ⟨hi', hr.finish t x⟩, rfl, fun s => r.part_finish s t x⟩,
    ?_⟩, hs⟩
  rw [hi'.size_eq, hi.size_eq]
  cases r.finish_snd t x with
  | inl h =>
    obtain ⟨e, hp⟩ := h
    rw [e, hp]
    rfl
  | inr e =>
    rw [e]
    exact Rota.size_withPart ..

theorem Sound.get_replaces (h : q.Sound) (hg : q.get.1 = .item x) :
    ∃ t items rest, q.home x = some t ∧ items.get? = some (x, rest) ∧
      q.Replaces q.get.2.1 t items rest := by
  obtain ⟨r, hi, hr⟩ := h
  obtain ⟨-, hi', -⟩ := hi.get hr
  obtain ⟨i, t, rest, hs, ht⟩ := hi.serving hr hg
  refine ⟨t, r.part t, rest, ht, hs.taken, home_get q, shuttingDown_get q,
    ⟨r, r.get.2, ⟨hi, hr⟩, ⟨hi', hs.sound hr⟩, rfl, fun s => ?_⟩, ?_⟩
  · rw [hs.left, Rota.part_withPart]
  · rw [hi'.size_eq, hi.size_eq, hs.left]
    exact Rota.size_withPart ..

theorem Sound.add (h : q.Sound) (x : α) : (q.add x).1.Sound := by
  cases ht : q.home x with
  | none => rwa [(q.rejects ht).1.1]
  | some t => exact (h.add_replaces ht).choose_spec.sound

theorem Sound.done (h : q.Sound) (x : α) : (q.done x).1.Sound := by
  cases ht : q.home x with
  | none => rwa [(q.rejects ht).2.1]
  | some t => exact (h.done_replaces ht).choose_spec.1.sound

theorem Sound.get_eq_self (h : q.Sound) (hg : ∀ x, q.get.1 ≠ .item x) : q.get.2.1 = q := by
  obtain ⟨r, hi, hr⟩ := h
  exact WorkQueue.get_eq_self hi hr hg

theorem Sound.get (h : q.Sound) : q.get.2.1.Sound := by
  cases hg : q.get.1 with
  | item x =>
    obtain ⟨t, items, rest, -, -, hr⟩ := h.get_replaces hg
    exact hr.sound
  | closed => rwa [h.get_eq_self (by simp [hg])]
  | blocked => rwa [h.get_eq_self (by simp [hg])]

/-- An item that is accepted is dirty from then on. -/
theorem Sound.isDirty_add (h : q.Sound) (ht : q.home x = some t) (y : α) :
    (q.add x).1.IsDirty y ↔ y = x ∨ q.IsDirty y := by
  obtain ⟨items, hr⟩ := h.add_replaces ht
  by_cases hy : q.home y = some t
  · rw [hr.isDirty_after hy, hr.isDirty_before hy, DedupQueue.mem_dirty_add]
  · rw [hr.isDirty_other hy]
    exact ⟨.inr, fun hd => hd.elim (fun e => absurd (e ▸ ht) hy) id⟩

theorem Sound.signal_add (h : q.Sound) (ht : q.home x = some t) :
    (q.add x).2.signal = wake q.flavour := by
  obtain ⟨r, hi, -⟩ := h
  exact (hi.add ht).2

theorem Sound.isProcessing_add (h : q.Sound) (x y : α) :
    (q.add x).1.IsProcessing y ↔ q.IsProcessing y := by
  cases ht : q.home x with
  | none => rw [(q.rejects ht).1.1]
  | some t =>
    obtain ⟨items, hr⟩ := h.add_replaces ht
    by_cases hy : q.home y = some t
    · rw [hr.isProcessing_after hy, hr.isProcessing_before hy, DedupQueue.processing_add]
    · exact hr.isProcessing_other hy

theorem Sound.size_add (h : q.Sound) (x : α) : (q.add x).1.size ≤ q.size + 1 := by
  cases ht : q.home x with
  | none => rw [(q.rejects ht).1.1]; omega
  | some t =>
    obtain ⟨items, hr⟩ := h.add_replaces ht
    have hs := hr.size_add
    have hw : (items.add x).size ≤ items.size + 1 := by
      rw [DedupQueue.size, DedupQueue.waiting_add]
      split <;> simp [DedupQueue.size]
    omega

/-- What is handed out was waiting. -/
theorem Sound.waiting_of_get (h : q.Sound) (hg : q.get.1 = .item x) :
    q.IsDirty x ∧ ¬ q.IsProcessing x := by
  obtain ⟨t, items, rest, ht, htaken, hr⟩ := h.get_replaces hg
  rw [hr.isDirty_before ht, hr.isProcessing_before ht]
  exact hr.items_sound.of_get htaken

theorem Sound.isDirty_get (h : q.Sound) (hg : q.get.1 = .item x) (y : α) :
    q.get.2.1.IsDirty y ↔ y ≠ x ∧ q.IsDirty y := by
  obtain ⟨t, items, rest, ht, htaken, hr⟩ := h.get_replaces hg
  by_cases hy : q.home y = some t
  · rw [hr.isDirty_after hy, hr.isDirty_before hy, DedupQueue.mem_dirty_get htaken]
  · rw [hr.isDirty_other hy]
    exact ⟨fun hd => ⟨fun e => hy (e ▸ ht), hd⟩, And.right⟩

theorem Sound.isProcessing_get (h : q.Sound) (hg : q.get.1 = .item x) (y : α) :
    q.get.2.1.IsProcessing y ↔ y = x ∨ q.IsProcessing y := by
  obtain ⟨t, items, rest, ht, htaken, hr⟩ := h.get_replaces hg
  by_cases hy : q.home y = some t
  · rw [hr.isProcessing_after hy, hr.isProcessing_before hy, DedupQueue.mem_processing_get htaken]
  · rw [hr.isProcessing_other hy]
    exact ⟨.inr, fun hd => hd.elim (fun e => absurd (e ▸ ht) hy) id⟩

theorem Sound.size_get (h : q.Sound) (hg : q.get.1 = .item x) : q.get.2.1.size + 1 = q.size := by
  obtain ⟨t, items, rest, -, htaken, hr⟩ := h.get_replaces hg
  have hs := hr.size_add
  have hw : items.size = rest.size + 1 := by
    rw [DedupQueue.size, (DedupQueue.get?_eq_some htaken).1]
    rfl
  omega

/-- A consumer has to wait only if nothing waits for it. -/
theorem Sound.get_blocked (h : q.Sound) (hg : q.get.1 = .blocked) :
    q.shuttingDown = false ∧ q.size = 0 := by
  obtain ⟨r, hi, hr⟩ := h
  obtain ⟨ha, -, -⟩ := hi.get hr
  have he : r.get = (.blocked, r.get.2) := Prod.ext (ha.symm.trans hg) rfl
  obtain ⟨hopen, -, hw⟩ := Rota.get_blocked hr he
  refine ⟨hi.shuttingDown_eq.trans hopen, ?_⟩
  rw [hi.size_eq, ← Rota.length_ready, List.length_eq_zero_iff]
  exact List.flatMap_eq_nil_iff.2 hw

theorem Sound.get_closed (h : q.Sound) (hg : q.get.1 = .closed) : q.shuttingDown = true := by
  obtain ⟨r, hi, hr⟩ := h
  obtain ⟨ha, -, -⟩ := hi.get hr
  have he : r.get = (.closed, r.get.2) := Prod.ext (ha.symm.trans hg) rfl
  exact hi.shuttingDown_eq.trans (Rota.get_closed he).1

theorem Sound.isDirty_done (h : q.Sound) (x y : α) : (q.done x).1.IsDirty y ↔ q.IsDirty y := by
  cases ht : q.home x with
  | none => rw [(q.rejects ht).2.1]
  | some t =>
    obtain ⟨items, hr, -⟩ := h.done_replaces ht
    by_cases hy : q.home y = some t
    · rw [hr.isDirty_after hy, hr.isDirty_before hy, DedupQueue.dirty_done]
    · exact hr.isDirty_other hy

theorem Sound.isProcessing_done (h : q.Sound) (x y : α) :
    (q.done x).1.IsProcessing y ↔ y ≠ x ∧ q.IsProcessing y := by
  cases ht : q.home x with
  | none =>
    rw [(q.rejects ht).2.1]
    refine ⟨fun hp => ⟨?_, hp⟩, And.right⟩
    rintro rfl
    obtain ⟨t, ht'⟩ := h.accepts (.inr hp)
    cases ht.symm.trans ht'
  | some t =>
    obtain ⟨items, hr, -⟩ := h.done_replaces ht
    by_cases hy : q.home y = some t
    · rw [hr.isProcessing_after hy, hr.isProcessing_before hy, DedupQueue.mem_processing_done]
    · rw [hr.isProcessing_other hy]
      exact ⟨fun hp => ⟨fun e => hy (e ▸ ht), hp⟩, And.right⟩

/-- An item is put back only with a signal. -/
theorem Sound.size_done (h : q.Sound) (x : α) :
    (q.done x).1.size = q.size ∧ (q.done x).2.signal = .none ∨
      (q.done x).1.size = q.size + 1 ∧ (q.done x).2.signal = wake q.flavour := by
  cases ht : q.home x with
  | none =>
    obtain ⟨-, h₁, h₂⟩ := q.rejects ht
    exact .inl ⟨by rw [h₁], h₂⟩
  | some t =>
    obtain ⟨items, hr, hsignal⟩ := h.done_replaces ht
    have hs := hr.size_add
    have hw : (items.done x).2.size = items.size + if (items.done x).1 then 1 else 0 := by
      simp only [DedupQueue.size, DedupQueue.waiting_done, items.done_fst x]
      split <;> simp
    rw [hsignal]
    cases hd : (items.done x).1 with
    | false =>
      rw [hd] at hw
      exact .inl ⟨by simp at hw; omega, rfl⟩
    | true =>
      rw [hd] at hw
      exact .inr ⟨by simp at hw; omega, rfl⟩

end Calls

end Law

end TenantQueue.Queue.WorkQueue
