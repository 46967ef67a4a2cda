import TenantQueue.Proofs.Queue.Calls
import Mathlib.Data.Finset.Card

/-! The law that ties the items a queue holds to what has occurred at it. An item is dirty while it
was added and not handed out since, and is being processed while it was handed out and not returned
since. So two consumers never hold one item, and no addition is lost. -/
namespace TenantQueue.Queue
variable {α : Type}

/-- Something occurred, and something else has not occurred since then. -/
def Since (o stop : Occurrence α) (h : List (Occurrence α)) : Prop :=
  ∃ before later, h = before ++ o :: later ∧ stop ∉ later

theorem not_since_nil (o stop : Occurrence α) : ¬ Since o stop [] := by
  rintro ⟨before, later, h, -⟩
  simp at h

theorem since_snoc {o stop : Occurrence α} (h : List (Occurrence α)) (o' : Occurrence α) :
    Since o stop (h ++ [o']) ↔ o' = o ∨ o' ≠ stop ∧ Since o stop h := by
  constructor
  · rintro ⟨before, later, he, hn⟩
    cases List.eq_nil_or_concat later with
    | inl e =>
      subst e
      exact .inl (List.append_inj_right' he rfl |> List.cons.inj).1
    | inr h =>
      obtain ⟨later, o'', rfl⟩ := h
      rw [List.concat_eq_append, ← List.cons_append, ← List.append_assoc] at he
      obtain ⟨rfl, ho⟩ := List.append_inj' he rfl
      cases ho
      rw [List.concat_eq_append, List.mem_append, not_or] at hn
      exact .inr ⟨fun e => hn.2 (e ▸ List.mem_singleton_self _), before, later, rfl, hn.1⟩
  · rintro (rfl | ⟨hne, before, later, rfl, hn⟩)
    · exact ⟨h, [], rfl, by simp⟩
    · exact ⟨before, later ++ [o'], by simp, by simp [hn, hne.symm]⟩

def Due (x : α) (h : List (Occurrence α)) : Prop := Since (.added x) (.handedOut x) h

def Out (x : α) (h : List (Occurrence α)) : Prop := Since (.handedOut x) (.returned x) h

theorem due_added (h : List (Occurrence α)) (x y : α) :
    Due y (h ++ [.added x]) ↔ y = x ∨ Due y h := by
  rw [Due, since_snoc]
  simp [Due, eq_comm]

theorem due_handedOut (h : List (Occurrence α)) (x y : α) :
    Due y (h ++ [.handedOut x]) ↔ y ≠ x ∧ Due y h := by
  rw [Due, since_snoc]
  simp [Due, eq_comm]

theorem due_returned (h : List (Occurrence α)) (x y : α) :
    Due y (h ++ [.returned x]) ↔ Due y h := by
  rw [Due, since_snoc]
  simp [Due]

theorem out_added (h : List (Occurrence α)) (x y : α) : Out y (h ++ [.added x]) ↔ Out y h := by
  rw [Out, since_snoc]
  simp [Out]

theorem out_handedOut (h : List (Occurrence α)) (x y : α) :
    Out y (h ++ [.handedOut x]) ↔ y = x ∨ Out y h := by
  rw [Out, since_snoc]
  simp [Out, eq_comm]

theorem out_returned (h : List (Occurrence α)) (x y : α) :
    Out y (h ++ [.returned x]) ↔ y ≠ x ∧ Out y h := by
  rw [Out, since_snoc]
  simp [Out, eq_comm]

def InTurn (h : List (Occurrence α)) : Prop :=
  ∀ before x later, h = before ++ .handedOut x :: later → Due x before ∧ ¬ Out x before

theorem inTurn_snoc {h : List (Occurrence α)} (ht : InTurn h) {o : Occurrence α}
    (ho : ∀ x, o = .handedOut x → Due x h ∧ ¬ Out x h) : InTurn (h ++ [o]) := by
  intro before x later he
  cases List.eq_nil_or_concat later with
  | inl e =>
    subst e
    obtain ⟨rfl, e⟩ := List.append_inj' he rfl
    exact ho x (List.cons.inj e).1
  | inr h =>
    obtain ⟨later, o', rfl⟩ := h
    rw [List.concat_eq_append, ← List.cons_append, ← List.append_assoc] at he
    exact ht before x later (List.append_inj' he rfl).1

/-- Of two events, the one that the other does not follow comes later. -/
theorem mem_later {o o' : Occurrence α} {l₁ l₂ m₁ m₂ : List (Occurrence α)}
    (he : l₁ ++ o :: l₂ = m₁ ++ o' :: m₂) (hne : o ≠ o') (hn : o' ∉ l₂) : o ∈ m₂ := by
  cases List.append_eq_append_iff.1 he with
  | inl h =>
    obtain ⟨t, -, ht⟩ := h
    cases t with
    | nil => exact absurd (List.cons.inj ht).1 hne
    | cons a t => exact absurd ((List.cons.inj ht).2 ▸ by simp) hn
  | inr h =>
    obtain ⟨t, -, ht⟩ := h
    cases t with
    | nil => exact absurd (List.cons.inj ht).1.symm hne
    | cons a t => exact (List.cons.inj ht).2 ▸ by simp

/-- Between two times that an item is handed out it is returned and added. -/
theorem InTurn.between {h before middle later : List (Occurrence α)} {x : α} (ht : InTurn h)
    (he : h = before ++ .handedOut x :: middle ++ .handedOut x :: later) :
    .returned x ∈ middle ∧ .added x ∈ middle := by
  obtain ⟨⟨front, back, hf, hb⟩, ho⟩ := ht _ x later he
  constructor
  · by_contra hn
    exact ho ⟨before, middle, rfl, hn⟩
  · exact mem_later hf.symm (by simp) hb

namespace WorkQueue
variable [WorkItem α] {q : WorkQueue α} {h : List (Occurrence α)}

structure Tracks (q : WorkQueue α) (h : List (Occurrence α)) : Prop where
  sound : q.Sound
  isDirty_iff (x : α) : (q.home x).isSome → (q.IsDirty x ↔ Due x h)
  isProcessing_iff (x : α) : q.IsProcessing x ↔ Out x h
  inTurn : InTurn h

theorem Tracks.mem_dirty (ht : q.Tracks h) {part : String × DedupQueue α} (hp : part ∈ q.parts)
    (x : α) : x ∈ part.2.dirty ↔ q.home x = some part.1 ∧ Due x h := by
  rw [ht.sound.mem_dirty hp]
  exact and_congr_right fun hx => ht.isDirty_iff x (by simp [hx])

theorem Tracks.mem_processing (ht : q.Tracks h) {part : String × DedupQueue α}
    (hp : part ∈ q.parts) (x : α) :
    x ∈ part.2.processing ↔ q.home x = some part.1 ∧ Out x h := by
  rw [ht.sound.mem_processing hp, ht.isProcessing_iff]

theorem Tracks.mem_ready (ht : q.Tracks h) (x : α) :
    x ∈ q.ready ↔ (q.home x).isSome ∧ Due x h ∧ ¬ Out x h := by
  rw [ht.sound.mem_ready, ht.isProcessing_iff]
  constructor
  · rintro ⟨hd, ho⟩
    obtain ⟨t, hx⟩ := ht.sound.accepts (.inl hd)
    have hs : (q.home x).isSome := by simp [hx]
    exact ⟨hs, (ht.isDirty_iff x hs).1 hd, ho⟩
  · rintro ⟨hs, hd, ho⟩
    exact ⟨(ht.isDirty_iff x hs).2 hd, ho⟩

theorem tracks_empty (flavour : Flavour) (name : Option String) :
    (empty flavour name : WorkQueue α).Tracks [] where
  sound := sound_empty flavour name
  isDirty_iff x _ := iff_of_false (not_held_empty flavour name x).1 (not_since_nil _ _)
  isProcessing_iff x := iff_of_false (not_held_empty flavour name x).2 (not_since_nil _ _)
  inTurn before x later h := by simp at h

theorem Tracks.shutDown (ht : q.Tracks h) : q.shutDown.1.Tracks h where
  sound := ht.sound.shutDown
  isDirty_iff x hx := by
    rw [home_shutDown] at hx
    rw [isDirty_shutDown]
    exact ht.isDirty_iff x hx
  isProcessing_iff x := by
    rw [isProcessing_shutDown]
    exact ht.isProcessing_iff x
  inTurn := ht.inTurn

variable [DecidableEq α]

theorem Tracks.add (ht : q.Tracks h) (x : α) : (q.add x).1.Tracks (h ++ [.added x]) where
  sound := ht.sound.add x
  isDirty_iff y hy := by
    rw [home_add] at hy
    have hd := ht.isDirty_iff y hy
    rw [due_added, ← hd]
    cases hx : q.home x with
    | none =>
      rw [(q.rejects hx).1.1]
      have hne : y ≠ x := fun e => by simp [e, hx] at hy
      simp [hne]
    | some t => exact ht.sound.isDirty_add hx y
  isProcessing_iff y := by
    rw [ht.sound.isProcessing_add, out_added]
    exact ht.isProcessing_iff y
  inTurn := inTurn_snoc ht.inTurn fun y hy => by cases hy

theorem Tracks.done (ht : q.Tracks h) (x : α) : (q.done x).1.Tracks (h ++ [.returned x]) where
  sound := ht.sound.done x
  isDirty_iff y hy := by
    rw [home_done] at hy
    rw [ht.sound.isDirty_done, due_returned]
    exact ht.isDirty_iff y hy
  isProcessing_iff y := by
    rw [ht.sound.isProcessing_done, out_returned, ht.isProcessing_iff]
  inTurn := inTurn_snoc ht.inTurn fun y hy => by cases hy

theorem Tracks.get (ht : q.Tracks h) : q.get.2.1.Tracks (h ++ q.occurs .get) := by
  cases hg : q.get.1 with
  | item x =>
    have ho : q.occurs .get = [.handedOut x] := by simp [occurs, hg]
    obtain ⟨hd, hp⟩ := ht.sound.waiting_of_get hg
    rw [ho]
    refine ⟨ht.sound.get, fun y hy => ?_, fun y => ?_, inTurn_snoc ht.inTurn fun y hy => ?_⟩
    · rw [home_get] at hy
      rw [ht.sound.isDirty_get hg, due_handedOut, ht.isDirty_iff y hy]
    · rw [ht.sound.isProcessing_get hg, out_handedOut, ht.isProcessing_iff y]
    · cases hy
      obtain ⟨t, hx⟩ := ht.sound.accepts (.inl hd)
      exact ⟨(ht.isDirty_iff x (by simp [hx])).1 hd, fun hu => hp ((ht.isProcessing_iff x).2 hu)⟩
  | closed => simpa [occurs, hg, ht.sound.get_eq_self] using ht
  | blocked => simpa [occurs, hg, ht.sound.get_eq_self] using ht

theorem Tracks.after (ht : q.Tracks h) (call : Call α) :
    (q.after call).Tracks (h ++ q.occurs call) := by
  cases call with
  | add x => exact ht.add x
  | get => exact ht.get
  | done x => exact ht.done x
  | shutDown =>
    rw [occurs, List.append_nil]
    exact ht.shutDown

theorem Tracks.run (ht : q.Tracks h) (calls : List (Call α)) :
    (q.run calls).Tracks (h ++ q.history calls) := by
  induction calls generalizing q h with
  | nil =>
    rw [history, List.append_nil]
    exact ht
  | cons call calls ih =>
    rw [history, ← List.append_assoc]
    exact ih (ht.after call)

/-- The items of a queue stand as its history says: what is dirty and what is being processed, in the
part of its own tenant and in no other, and that an item which is due and not out waits there,
once. -/
structure Reflects (q : WorkQueue α) (h : List (Occurrence α)) : Prop where
  tenants_nodup : (q.parts.map Prod.fst).Nodup
  has_part (x : α) : (q.home x).isSome → Due x h ∨ Out x h →
    ∃ part ∈ q.parts, q.home x = some part.1
  mem_dirty : ∀ part ∈ q.parts, ∀ x, x ∈ part.2.dirty ↔ q.home x = some part.1 ∧ Due x h
  mem_processing : ∀ part ∈ q.parts, ∀ x, x ∈ part.2.processing ↔ q.home x = some part.1 ∧ Out x h
  waits_once : ∀ part ∈ q.parts, ∀ x, q.home x = some part.1 → Due x h → ¬ Out x h →
    part.2.waiting.count x = 1
  waits_only : ∀ part ∈ q.parts, ∀ x ∈ part.2.waiting,
    q.home x = some part.1 ∧ Due x h ∧ ¬ Out x h
  size_eq_card : ∃ items : Finset α,
    (∀ x, x ∈ items ↔ (q.home x).isSome ∧ Due x h ∧ ¬ Out x h) ∧ q.size = items.card

theorem Tracks.reflects (ht : q.Tracks h) : q.Reflects h where
  tenants_nodup := ht.sound.tenants_nodup
  has_part x hx hd := by
    rw [← ht.isDirty_iff x hx, ← ht.isProcessing_iff] at hd
    cases hd with
    | inl h =>
      obtain ⟨part, hp, hx⟩ := h
      exact ⟨part, hp, ((ht.mem_dirty hp x).1 hx).1⟩
    | inr h =>
      obtain ⟨part, hp, hx⟩ := h
      exact ⟨part, hp, ((ht.mem_processing hp x).1 hx).1⟩
  mem_dirty part hp x := ht.mem_dirty hp x
  mem_processing part hp x := ht.mem_processing hp x
  waits_once part hp x hx hd ho := by
    have hs := ht.sound.part_sound hp
    refine List.count_eq_one_of_mem hs.waiting_nodup ((hs.mem_waiting x).2 ⟨?_, fun hm => ?_⟩)
    · exact (ht.mem_dirty hp x).2 ⟨hx, hd⟩
    · exact ho ((ht.mem_processing hp x).1 hm).2
  waits_only part hp x hw := by
    obtain ⟨hd, ho⟩ := ((ht.sound.part_sound hp).mem_waiting x).1 hw
    obtain ⟨hx, hd⟩ := (ht.mem_dirty hp x).1 hd
    exact ⟨hx, hd, fun hu => ho ((ht.mem_processing hp x).2 ⟨hx, hu⟩)⟩
  size_eq_card := by
    refine ⟨q.ready.toFinset, fun x => ?_, ?_⟩
    · rw [List.mem_toFinset, ht.mem_ready]
    · rw [List.toFinset_card_of_nodup ht.sound.ready_nodup, ht.sound.length_ready]

/-- Whatever calls are made on an empty queue, and in whatever order, the items it holds are those
that its history says. No item is handed out twice without being returned and added in between, and
none that was added is forgotten before it is handed out. -/
theorem run_reflects_history (flavour : Flavour) (name : Option String) (calls : List (Call α)) :
    let start : WorkQueue α := .empty flavour name
    let h := start.history calls
    (start.run calls).Reflects h ∧
      (∀ before x middle later, h = before ++ .handedOut x :: middle ++ .handedOut x :: later →
        .returned x ∈ middle ∧ .added x ∈ middle) ∧
      ∀ before x later, (start.home x).isSome → h = before ++ .added x :: later →
        .handedOut x ∉ later → (start.run calls).IsDirty x := by
  intro start h
  have ht : (start.run calls).Tracks h := (tracks_empty flavour name).run calls
  refine ⟨ht.reflects, fun before x middle later he => ht.inTurn.between he, ?_⟩
  intro before x later hx he hn
  exact (ht.isDirty_iff x (by rwa [home_run])).2 ⟨before, later, he, hn⟩

end WorkQueue

end TenantQueue.Queue
