import TenantQueue.Queue.Dedup
import Mathlib.Data.List.Nodup

/-! The law of a queue in which an item waits at most once: what is waiting is what needs work and
is not being worked on. Every call keeps it. -/
namespace TenantQueue.Queue.DedupQueue
variable {α : Type}

/-- Nothing is held twice, and the waiting items are the dirty ones that nobody works on. -/
structure Sound (q : DedupQueue α) : Prop where
  waiting_nodup : q.waiting.Nodup
  dirty_nodup : q.dirty.Nodup
  processing_nodup : q.processing.Nodup
  mem_waiting (x : α) : x ∈ q.waiting ↔ x ∈ q.dirty ∧ x ∉ q.processing

theorem sound_empty : ({} : DedupQueue α).Sound :=
  ⟨.nil, .nil, .nil, fun _ => by simp⟩

variable [DecidableEq α]

theorem mem_dirty_add (q : DedupQueue α) (x y : α) :
    y ∈ (q.add x).dirty ↔ y = x ∨ y ∈ q.dirty := by
  unfold add
  split
  · next h => exact ⟨.inr, fun hy => hy.elim (fun e => e ▸ h) id⟩
  · split <;> exact List.mem_cons

theorem processing_add (q : DedupQueue α) (x : α) : (q.add x).processing = q.processing := by
  unfold add
  split
  · rfl
  · split <;> rfl

theorem waiting_add (q : DedupQueue α) (x : α) :
    (q.add x).waiting =
      if x ∈ q.dirty ∨ x ∈ q.processing then q.waiting else q.waiting ++ [x] := by
  unfold add
  by_cases hd : x ∈ q.dirty
  · simp [hd]
  · by_cases hp : x ∈ q.processing <;> simp [hd, hp]

theorem Sound.add {q : DedupQueue α} (h : q.Sound) (x : α) : (q.add x).Sound where
  waiting_nodup := by
    rw [waiting_add]
    split
    · exact h.waiting_nodup
    · next hx =>
      have hw : x ∉ q.waiting := fun hm => hx (.inl ((h.mem_waiting x).1 hm).1)
      exact List.concat_eq_append ▸ List.Nodup.concat hw h.waiting_nodup
  dirty_nodup := by
    unfold DedupQueue.add
    split
    · exact h.dirty_nodup
    · next hx => split <;> exact List.nodup_cons.2 ⟨hx, h.dirty_nodup⟩
  processing_nodup := by
    rw [processing_add]
    exact h.processing_nodup
  mem_waiting y := by
    have hy := h.mem_waiting y
    rw [waiting_add, mem_dirty_add, processing_add]
    by_cases e : y = x
    · subst e
      split
      · rw [hy]
        grind
      · grind
    · split <;> simp [hy, e]

theorem get?_eq_none {q : DedupQueue α} : q.get? = none ↔ q.waiting = [] := by
  unfold get?
  split <;> simp_all

theorem get?_eq_some {q q' : DedupQueue α} {x : α} (h : q.get? = some (x, q')) :
    q.waiting = x :: q'.waiting ∧ q'.dirty = q.dirty.filter (· ≠ x) ∧
      q'.processing = q.processing.insert x := by
  unfold get? at h
  split at h
  · cases h
  · next hw => cases h; exact ⟨hw, rfl, rfl⟩

theorem mem_dirty_get {q q' : DedupQueue α} {x : α} (h : q.get? = some (x, q')) (y : α) :
    y ∈ q'.dirty ↔ y ≠ x ∧ y ∈ q.dirty := by
  simp [(get?_eq_some h).2.1, and_comm]

theorem mem_processing_get {q q' : DedupQueue α} {x : α} (h : q.get? = some (x, q')) (y : α) :
    y ∈ q'.processing ↔ y = x ∨ y ∈ q.processing := by
  simp [(get?_eq_some h).2.2]

/-- What is handed out was waiting. -/
theorem Sound.of_get {q q' : DedupQueue α} {x : α} (h : q.Sound) (hg : q.get? = some (x, q')) :
    x ∈ q.dirty ∧ x ∉ q.processing :=
  (h.mem_waiting x).1 ((get?_eq_some hg).1 ▸ List.mem_cons_self)

theorem Sound.get {q q' : DedupQueue α} {x : α} (h : q.Sound) (hg : q.get? = some (x, q')) :
    q'.Sound := by
  obtain ⟨hw, hd, hp⟩ := get?_eq_some hg
  have hn : x ∉ q'.waiting ∧ q'.waiting.Nodup := List.nodup_cons.1 (hw ▸ h.waiting_nodup)
  refine ⟨hn.2, ?_, ?_, fun y => ?_⟩
  · rw [hd]
    exact h.dirty_nodup.filter _
  · rw [hp]
    exact h.processing_nodup.insert
  · have hy := h.mem_waiting y
    rw [hw, List.mem_cons] at hy
    rw [mem_dirty_get hg, mem_processing_get hg]
    by_cases e : y = x
    · subst e
      simp [hn.1]
    · simpa [e] using hy

theorem done_fst (q : DedupQueue α) (x : α) :
    (q.done x).1 = true ↔ x ∈ q.processing ∧ x ∈ q.dirty := by
  unfold done
  by_cases hp : x ∈ q.processing
  · by_cases hd : x ∈ q.dirty <;> simp [hp, hd]
  · simp [hp]

theorem dirty_done (q : DedupQueue α) (x : α) : (q.done x).2.dirty = q.dirty := by
  unfold done
  split
  · split <;> rfl
  · rfl

theorem processing_done (q : DedupQueue α) (x : α) :
    (q.done x).2.processing = q.processing.filter (· ≠ x) := by
  unfold done
  split
  · split <;> rfl
  · next hp =>
    refine (List.filter_eq_self.2 fun y hy => decide_eq_true ?_).symm
    rintro rfl
    exact hp hy

theorem mem_processing_done (q : DedupQueue α) (x y : α) :
    y ∈ (q.done x).2.processing ↔ y ≠ x ∧ y ∈ q.processing := by
  simp [processing_done, and_comm]

theorem waiting_done (q : DedupQueue α) (x : α) :
    (q.done x).2.waiting =
      if x ∈ q.processing ∧ x ∈ q.dirty then q.waiting ++ [x] else q.waiting := by
  unfold done
  by_cases hp : x ∈ q.processing
  · by_cases hd : x ∈ q.dirty <;> simp [hp, hd]
  · simp [hp]

theorem Sound.done {q : DedupQueue α} (h : q.Sound) (x : α) : (q.done x).2.Sound where
  waiting_nodup := by
    rw [waiting_done]
    split
    · next hx =>
      have hw : x ∉ q.waiting := fun hm => ((h.mem_waiting x).1 hm).2 hx.1
      exact List.concat_eq_append ▸ List.Nodup.concat hw h.waiting_nodup
    · exact h.waiting_nodup
  dirty_nodup := by
    rw [dirty_done]
    exact h.dirty_nodup
  processing_nodup := by
    rw [processing_done]
    exact h.processing_nodup.filter _
  mem_waiting y := by
    have hy := h.mem_waiting y
    rw [waiting_done, dirty_done, mem_processing_done]
    by_cases e : y = x
    · subst e
      split
      · grind
      · rw [hy]
        grind
    · split <;> simp [hy, e]

end TenantQueue.Queue.DedupQueue
