import TenantQueue.Queue.Effects
import TenantQueue.Proofs.Queue.Dedup
import TenantQueue.Proofs.Queue.Revolution
import Mathlib.Algebra.GroupWithZero.Nat

/-! The scheduler that the queues implement: tenants in the order of their first items, each with
the queue of its items, and the tenant that was served last. Where an item belongs is a parameter,
so that a queue for all tenants together is a rota with one. -/
namespace TenantQueue.Queue
variable {α : Type}

structure Rota (α : Type) where
  tenants : List (String × DedupQueue α) := []
  served : Option Nat := none
  shuttingDown : Bool := false

namespace Rota

def part (r : Rota α) (t : String) : DedupQueue α := (r.tenants.lookup t).getD {}

def size (r : Rota α) : Nat := (r.tenants.map fun e => e.2.size).sum

def resting (r : Rota α) : Position := r.served.elim .head .slot

def order (r : Rota α) : List Nat := r.resting.revolution r.tenants.length

def shutDown (r : Rota α) : Rota α := { r with shuttingDown := true }

section Calls
variable [DecidableEq α]

def put (r : Rota α) (t : String) (x : α) : Rota α :=
  { r with tenants := Ring.assign t ((r.part t).add x) r.tenants }

def finish (r : Rota α) (t : String) (x : α) : Bool × Rota α :=
  match r.tenants.lookup t with
  | none => (false, r)
  | some items =>
    ((items.done x).1, { r with tenants := Ring.assign t (items.done x).2 r.tenants })

def offer (r : Rota α) (i : Nat) : Option (α × Rota α) :=
  r.tenants[i]?.bind fun e => e.2.get?.map fun taken =>
    (taken.1, { r with tenants := r.tenants.modify i fun e => (e.1, taken.2), served := some i })

def get (r : Rota α) : Taken α × Rota α :=
  if r.shuttingDown then (.closed, r)
  else match r.order.findSome? r.offer with
    | some (x, r) => (.item x, r)
    | none => (.blocked, r)

end Calls

/-- The law of a rota. An item is held by the queue of its own tenant only. -/
structure Sound (home : α → Option String) (r : Rota α) : Prop where
  keys_nodup : (r.tenants.map Prod.fst).Nodup
  within : r.resting.Within r.tenants.length
  part_sound (t : String) : (r.part t).Sound
  at_home (t : String) (x : α) :
    x ∈ (r.part t).dirty ∨ x ∈ (r.part t).processing → home x = some t

theorem sound_empty (home : α → Option String) : Sound home {} where
  keys_nodup := .nil
  within := trivial
  part_sound _ := DedupQueue.sound_empty
  at_home _ _ h := by simp [part] at h

theorem Sound.shutDown {home : α → Option String} {r : Rota α} (h : r.Sound home) :
    r.shutDown.Sound home := ⟨h.keys_nodup, h.within, h.part_sound, h.at_home⟩

def withPart (r : Rota α) (t : String) (items : DedupQueue α) (served : Option Nat) : Rota α :=
  { r with tenants := Ring.assign t items r.tenants, served }

theorem part_withPart (r : Rota α) (s t : String) (items : DedupQueue α) (served : Option Nat) :
    (r.withPart t items served).part s = if s = t then items else r.part s := by
  simp only [part, withPart, Ring.lookup_assign, beq_iff_eq]
  split <;> rfl

theorem length_assign (t : String) (items : DedupQueue α) (es : List (String × DedupQueue α)) :
    es.length ≤ (Ring.assign t items es).length := by
  have h := congrArg List.length (Ring.keys_assign es t items)
  rw [List.length_map] at h
  rw [h]
  split <;> simp

theorem Sound.withPart {home : α → Option String} {r : Rota α} (h : r.Sound home) {t : String}
    {items : DedupQueue α} {served : Option Nat} (hs : items.Sound)
    (hw : (served.elim .head .slot : Position).Within r.tenants.length)
    (hx : ∀ x, x ∈ items.dirty ∨ x ∈ items.processing → home x = some t) :
    (r.withPart t items served).Sound home where
  keys_nodup := by
    simp only [Rota.withPart, Ring.keys_assign]
    split
    · exact h.keys_nodup
    · next hn => exact List.concat_eq_append ▸ List.Nodup.concat hn h.keys_nodup
  within := by
    have hl := length_assign t items r.tenants
    cases served with
    | none => trivial
    | some i => exact Nat.lt_of_lt_of_le hw hl
  part_sound s := by
    rw [part_withPart]
    split
    · exact hs
    · exact h.part_sound s
  at_home s x := by
    rw [part_withPart]
    split
    · next e => exact e ▸ hx x
    · exact h.at_home s x

theorem size_assign (t : String) (items : DedupQueue α) (es : List (String × DedupQueue α)) :
    ((Ring.assign t items es).map fun e => e.2.size).sum + ((es.lookup t).getD {}).size =
      (es.map fun e => e.2.size).sum + items.size := by
  induction es with
  | nil => simp [Ring.assign, DedupQueue.size]
  | cons e es ih =>
    unfold Ring.assign
    rw [List.lookup_cons]
    cases t == e.1 with
    | true => simp; omega
    | false => simp; omega

theorem size_withPart (r : Rota α) (t : String) (items : DedupQueue α) (served : Option Nat) :
    (r.withPart t items served).size + (r.part t).size = r.size + items.size :=
  size_assign t items r.tenants

theorem part_of_mem {home : α → Option String} {r : Rota α} (h : r.Sound home)
    {e : String × DedupQueue α} (he : e ∈ r.tenants) :
    r.part e.1 = e.2 := by
  obtain ⟨front, back, hs⟩ := List.append_of_mem he
  have hn : e.1 ∉ front.map Prod.fst := by
    have := h.keys_nodup
    rw [hs, List.map_append, List.map_cons, List.nodup_append] at this
    exact fun hm => this.2.2 _ hm _ List.mem_cons_self rfl
  have hl : front.lookup e.1 = none := List.lookup_eq_none_iff.2 fun p hp => by
    simpa using fun hk : e.1 = p.1 => hn (hk ▸ List.mem_map_of_mem hp)
  rw [part, hs, List.lookup_append, hl, Option.none_or, List.lookup_cons]
  simp

theorem modify_eq_assign {home : α → Option String} {r : Rota α} (h : r.Sound home) {i : Nat}
    {e : String × DedupQueue α}
    (he : r.tenants[i]? = some e) (items : DedupQueue α) :
    r.tenants.modify i (fun e => (e.1, items)) = Ring.assign e.1 items r.tenants :=
  (Ring.assign_of_getElem? h.keys_nodup he items).symm

def ready (r : Rota α) : List α := r.tenants.flatMap fun e => e.2.waiting

theorem length_ready (r : Rota α) : r.ready.length = r.size := by
  simp [ready, size, List.length_flatMap, DedupQueue.size]

theorem mem_ready {home : α → Option String} {r : Rota α} (h : r.Sound home) (x : α) :
    x ∈ r.ready ↔ ∃ t, home x = some t ∧ x ∈ (r.part t).waiting := by
  rw [ready, List.mem_flatMap]
  constructor
  · rintro ⟨e, he, hx⟩
    rw [← part_of_mem h he] at hx
    exact ⟨e.1, h.at_home e.1 x (.inl (((h.part_sound e.1).mem_waiting x).1 hx).1), hx⟩
  · rintro ⟨t, -, hx⟩
    unfold part at hx
    cases hl : r.tenants.lookup t with
    | none => simp [hl] at hx
    | some items =>
      rw [hl] at hx
      obtain ⟨front, back, hs, -⟩ := List.lookup_eq_some_iff.1 hl
      exact ⟨(t, items), by simp [hs], hx⟩

theorem ready_nodup {home : α → Option String} {r : Rota α} (h : r.Sound home) :
    r.ready.Nodup := by
  have waits {e : String × DedupQueue α} (he : e ∈ r.tenants) {x : α} (hx : x ∈ e.2.waiting) :
      home x = some e.1 := by
    rw [← part_of_mem h he] at hx
    exact h.at_home e.1 x (.inl (((h.part_sound e.1).mem_waiting x).1 hx).1)
  refine List.nodup_flatMap.2 ⟨fun e he => ?_, ?_⟩
  · rw [← part_of_mem h he]
    exact (h.part_sound e.1).waiting_nodup
  · refine (List.pairwise_map.1 h.keys_nodup).imp_of_mem fun ha hb hne x hxa hxb => hne ?_
    exact Option.some.inj ((waits ha hxa).symm.trans (waits hb hxb))

section Calls
variable [DecidableEq α] {home : α → Option String} {r r' : Rota α} {t : String} {x : α}

theorem put_eq (r : Rota α) (t : String) (x : α) :
    r.put t x = r.withPart t ((r.part t).add x) r.served := rfl

theorem Sound.put (h : r.Sound home) (hx : home x = some t) : (r.put t x).Sound home := by
  rw [put_eq]
  refine h.withPart ((h.part_sound t).add x) h.within fun y hy => ?_
  rw [DedupQueue.mem_dirty_add, DedupQueue.processing_add] at hy
  rcases hy with (rfl | hy) | hy
  · exact hx
  · exact h.at_home t y (.inl hy)
  · exact h.at_home t y (.inr hy)

theorem finish_fst (r : Rota α) (t : String) (x : α) :
    (r.finish t x).1 = ((r.part t).done x).1 := by
  unfold finish part
  split
  · next h => rw [h]; rfl
  · next h => rw [h]; rfl

theorem finish_snd (r : Rota α) (t : String) (x : α) :
    (r.finish t x).2 = r ∧ r.part t = {} ∨
      (r.finish t x).2 = r.withPart t ((r.part t).done x).2 r.served := by
  unfold finish part
  split
  · next h => exact .inl ⟨rfl, by rw [h]; rfl⟩
  · next h => exact .inr (by rw [h]; rfl)

theorem part_finish (r : Rota α) (s t : String) (x : α) :
    (r.finish t x).2.part s = if s = t then ((r.part t).done x).2 else r.part s := by
  cases finish_snd r t x with
  | inl h =>
    obtain ⟨h, hp⟩ := h
    rw [h, hp]
    split
    · next e => rw [e, hp]; rfl
    · rfl
  | inr h =>
    rw [h, part_withPart]

theorem Sound.finish (h : r.Sound home) (t : String) (x : α) : (r.finish t x).2.Sound home := by
  cases finish_snd r t x with
  | inl h =>
    obtain ⟨e, -⟩ := h
    rw [e]
    exact h
  | inr e =>
    rw [e]
    refine h.withPart ((h.part_sound t).done x) h.within fun y hy => h.at_home t y ?_
    rw [DedupQueue.dirty_done, DedupQueue.mem_processing_done] at hy
    exact hy.imp_right And.right

structure Serving (r : Rota α) (x : α) (r' : Rota α) (i : Nat) (t : String)
    (rest : DedupQueue α) : Prop where
  is_open : r.shuttingDown = false
  tenant : r.tenants[i]? = some (t, r.part t)
  taken : (r.part t).get? = some (x, rest)
  left : r' = r.withPart t rest (some i)
  first : ∃ front back, r.order = front ++ i :: back ∧ ∀ j ∈ front, r.offer j = none

theorem get_item (h : r.Sound home) (hg : r.get = (.item x, r')) :
    ∃ i t rest, r.Serving x r' i t rest := by
  unfold get at hg
  split at hg
  · cases hg
  · next hopen =>
    split at hg
    · next y r'' hf =>
      obtain ⟨front, i, back, ho, hi, hfirst⟩ := List.findSome?_eq_some_iff.1 hf
      cases hg
      obtain ⟨e, he, ht⟩ := Option.bind_eq_some_iff.1 hi
      obtain ⟨⟨y, rest⟩, htaken, heq⟩ := Option.map_eq_some_iff.1 ht
      cases heq
      have hp := part_of_mem h (List.mem_of_getElem? he)
      refine ⟨i, e.1, rest, by simpa using hopen, by rw [hp, he], by rw [hp, htaken], ?_,
        front, back, ho, hfirst⟩
      simp only [withPart, modify_eq_assign h he]
    · cases hg

theorem get_blocked (h : r.Sound home) (hg : r.get = (.blocked, r')) :
    r.shuttingDown = false ∧ r' = r ∧ ∀ e ∈ r.tenants, e.2.waiting = [] := by
  unfold get at hg
  split at hg
  · cases hg
  · next hopen =>
    split at hg
    · cases hg
    · next hf =>
      cases hg
      refine ⟨by simpa using hopen, rfl, fun e he => ?_⟩
      obtain ⟨i, hi, rfl⟩ := List.mem_iff_getElem.1 he
      have ho := List.findSome?_eq_none_iff.1 hf i ((Position.mem_revolution h.within i).2 hi)
      simpa [offer, List.getElem?_eq_getElem hi, DedupQueue.get?_eq_none] using ho

theorem get_closed (hg : r.get = (.closed, r')) : r.shuttingDown = true ∧ r' = r := by
  unfold get at hg
  split at hg
  · next hd => cases hg; exact ⟨hd, rfl⟩
  · split at hg <;> cases hg

theorem Serving.sound (h : r.Sound home) {i : Nat} {rest : DedupQueue α}
    (hs : r.Serving x r' i t rest) : r'.Sound home := by
  rw [hs.left]
  obtain ⟨hi, -⟩ := List.getElem?_eq_some_iff.1 hs.tenant
  refine h.withPart ((h.part_sound t).get hs.taken) hi fun y hy => h.at_home t y ?_
  rw [DedupQueue.mem_dirty_get hs.taken, DedupQueue.mem_processing_get hs.taken] at hy
  rcases hy with hy | rfl | hy
  · exact .inl hy.2
  · exact .inl ((h.part_sound t).of_get hs.taken).1
  · exact .inr hy

end Calls

end Rota

end TenantQueue.Queue
