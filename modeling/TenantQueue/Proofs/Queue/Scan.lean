import TenantQueue.Proofs.Queue.RingCalls

/-! How a scan leads a visitor round a ring. The visitor may keep a state and change each value it is
shown; the scan shows it every slot once, from the one after the cursor on, until it has enough. -/
namespace TenantQueue.Queue
variable {κ ν σ : Type}

structure Visit (σ ν : Type) where
  slot : Nat
  state : σ
  value : ν

namespace Visitor
variable (visit : Visitor σ ν)

def more (v : Visit σ ν) : Bool := (visit v.state v.value).1

def left (v : Visit σ ν) : ν := (visit v.state v.value).2.1

/-- The calls of a visitor that is shown slots in turn until it has enough. A slot without a value
is passed over. -/
def visits (value : Nat → Option ν) : List Nat → σ → List (Visit σ ν)
  | [], _ => []
  | i :: order, s =>
    match value i with
    | none => visits value order s
    | some v =>
      ⟨i, s, v⟩ :: if (visit s v).1 then visits value order (visit s v).2.2 else []

def final (s : σ) (vs : List (Visit σ ν)) : σ :=
  vs.getLast?.elim s fun v => (visit v.state v.value).2.2

def recording : Visitor (σ × List (σ × ν)) ν := fun s v =>
  ((visit s.1 v).1, (visit s.1 v).2.1, (visit s.1 v).2.2, s.2 ++ [(s.1, v)])

theorem visits_congr {value value' : Nat → Option ν} {order : List Nat}
    (h : ∀ i ∈ order, value i = value' i) (s : σ) :
    visits visit value order s = visits visit value' order s := by
  induction order generalizing s with
  | nil => rfl
  | cons i order ih =>
    have hrest (s : σ) := ih (fun j hj => h j (List.mem_cons_of_mem i hj)) s
    unfold visits
    rw [h i List.mem_cons_self]
    cases value' i with
    | none => exact hrest s
    | some v => simp only [hrest]

end Visitor

namespace Ring
open Visitor
variable (visit : Visitor σ ν)

structure Swept (order : List Nat) (es : List (κ × ν)) (s : σ) (vs : List (Visit σ ν))
    (stop : Option Nat) (es' : List (κ × ν)) (s' : σ) : Prop where
  in_turn : vs.map Visit.slot <+: order
  visited : ∀ v ∈ vs, es'[v.slot]? = es[v.slot]?.map fun e => (e.1, visit.left v)
  unvisited : ∀ i ∉ vs.map Visit.slot, es'[i]? = es[i]?
  enough : ∀ v ∈ vs, visit.more v = false → vs.getLast? = some v ∧ stop = some v.slot
  never : (∀ v ∈ vs, visit.more v = true) → vs.map Visit.slot = order ∧ stop = none
  state : s' = visit.final s vs

theorem swept_nil (es : List (κ × ν)) (s : σ) : Swept visit [] es s [] none es s where
  in_turn := List.prefix_refl _
  visited _ h := by cases h
  unvisited _ _ := rfl
  enough _ h := by cases h
  never _ := ⟨rfl, rfl⟩
  state := rfl

variable {visit} {order : List Nat} {es es' : List (κ × ν)} {s s' : σ} {vs : List (Visit σ ν)}
  {stop : Option Nat} {i : Nat} {e : κ × ν}

/-- The visitor has enough at the first slot. -/
theorem swept_stop (hi : es[i]? = some e) (hv : (visit s e.2).1 = false) :
    Swept visit (i :: order) es s [⟨i, s, e.2⟩] (some i)
      (es.modify i fun e' => (e'.1, (visit s e.2).2.1)) (visit s e.2).2.2 where
  in_turn := by simp
  visited v hm := by
    cases List.mem_singleton.1 hm
    simp [hi, left]
  unvisited j hj := by
    have hne : i ≠ j := fun h => hj (by simp [h])
    simp [hne]
  enough v hm _ := by
    cases List.mem_singleton.1 hm
    exact ⟨rfl, rfl⟩
  never h := by
    have hm := h ⟨i, s, e.2⟩ (List.mem_singleton_self _)
    rw [more, hv] at hm
    cases hm
  state := rfl

/-- The visitor goes on after the first slot, which no later call touches. -/
theorem Swept.cons (hi : es[i]? = some e) (hv : (visit s e.2).1 = true) (hn : i ∉ order)
    (h : Swept visit order (es.modify i fun e' => (e'.1, (visit s e.2).2.1)) (visit s e.2).2.2 vs
      stop es' s') :
    Swept visit (i :: order) es s (⟨i, s, e.2⟩ :: vs) stop es' s' := by
  have hfirst : i ∉ vs.map Visit.slot := fun hm => hn (h.in_turn.mem hm)
  refine ⟨?_, fun v hm => ?_, fun j hj => ?_, fun v hm he => ?_, fun hall => ?_, ?_⟩
  · exact (List.prefix_cons_inj i).2 h.in_turn
  · cases List.mem_cons.1 hm with
    | inl hm =>
      subst hm
      rw [h.unvisited i hfirst]
      simp [hi, left]
    | inr hm =>
      have hne : i ≠ v.slot := fun he => hfirst (he ▸ List.mem_map_of_mem hm)
      rw [h.visited v hm]
      simp [hne]
  · rw [List.map_cons, List.mem_cons, not_or] at hj
    have hne : i ≠ j := fun he => hj.1 he.symm
    rw [h.unvisited j hj.2]
    simp [hne]
  · cases List.mem_cons.1 hm with
    | inl hm =>
      subst hm
      rw [more, hv] at he
      cases he
    | inr hm =>
      obtain ⟨hlast, hstop⟩ := h.enough v hm he
      exact ⟨by rw [List.getLast?_cons, hlast]; rfl, hstop⟩
  · obtain ⟨hslots, hstop⟩ := h.never fun v hm => hall v (List.mem_cons_of_mem _ hm)
    exact ⟨by rw [List.map_cons, hslots], hstop⟩
  · rw [h.state, final, final, List.getLast?_cons]
    cases vs.getLast? <;> rfl

/-- Later slots hold what they held before the first was visited. -/
theorem visits_modify (visit : Visitor σ ν) (hn : i ∉ order) (f : κ × ν → κ × ν) (s : σ) :
    visits visit (fun j => (es.modify i f)[j]?.map Prod.snd) order s =
      visits visit (fun j => es[j]?.map Prod.snd) order s := by
  refine visits_congr visit (fun j hj => ?_) s
  have hne : i ≠ j := fun he => hn (he ▸ hj)
  simp [hne]

theorem swept_sweep (visit : Visitor σ ν) (hn : order.Nodup) (hm : ∀ i ∈ order, i < es.length)
    (s : σ) :
    Swept visit order es s (visits visit (fun j => es[j]?.map Prod.snd) order s)
      (sweep visit order es s).1 (sweep visit order es s).2.1 (sweep visit order es s).2.2 := by
  induction order generalizing es s with
  | nil => exact swept_nil visit es s
  | cons i order ih =>
    rw [List.nodup_cons] at hn
    obtain ⟨e, hi⟩ : ∃ e, es[i]? = some e := ⟨_, List.getElem?_eq_getElem (hm i List.mem_cons_self)⟩
    simp only [visits, sweep, hi, Option.map_some]
    by_cases hv : (visit s e.2).1 = true
    · have hrest : ∀ j ∈ order, j < (es.modify i fun e' => (e'.1, (visit s e.2).2.1)).length :=
        fun j hj => by simpa using hm j (List.mem_cons_of_mem i hj)
      have h := ih hn.2 hrest (visit s e.2).2.2
      rw [visits_modify visit hn.1] at h
      simp only [hv, if_true]
      exact h.cons hi hv hn.1
    · simp only [hv]
      exact swept_stop hi (Bool.not_eq_true _ ▸ hv)

/-- Keeping a record does not change the sweep, and the record holds the calls. -/
theorem sweep_recording (visit : Visitor σ ν) (hn : order.Nodup) (s : σ) (record : List (σ × ν)) :
    sweep visit.recording order es (s, record) =
      ((sweep visit order es s).1, (sweep visit order es s).2.1, (sweep visit order es s).2.2,
        record ++ (visits visit (fun j => es[j]?.map Prod.snd) order s).map fun v =>
          (v.state, v.value)) := by
  induction order generalizing es s record with
  | nil => simp [sweep, visits]
  | cons i order ih =>
    rw [List.nodup_cons] at hn
    unfold sweep visits
    cases hi : es[i]? with
    | none => exact ih hn.2 s record
    | some e =>
      simp only [Option.map_some, recording]
      by_cases hv : (visit s e.2).1 = true
      · simp only [hv, if_true, ih hn.2, visits_modify visit hn.1, List.append_assoc]
        rfl
      · simp only [hv]
        rfl

theorem revolution_nodup (n : Nat) (c : Position) : (c.revolution n).Nodup := by
  cases c with
  | head => exact List.nodup_range'
  | slot c =>
    rw [Position.revolution, List.append_assoc]
    refine List.nodup_append.2 ⟨List.nodup_range', ?_, fun i hi j hj => ?_⟩
    · refine List.nodup_append.2 ⟨List.nodup_range', List.nodup_singleton c, fun i hi j hj => ?_⟩
      rw [List.mem_range'_1] at hi
      rw [List.mem_singleton] at hj
      omega
    · rw [List.mem_range'_1] at hi
      rw [List.mem_append, List.mem_range'_1, List.mem_singleton] at hj
      omega

section Scan
variable {r : Ring κ ν}

theorem LaidOut.size_eq (h : r.LaidOut) : r.size = r.entries.length := by
  rw [h.eq_ofEntries, size_ofEntries, entries_ofEntries]

theorem LaidOut.valueAt? (h : r.LaidOut) (i : Nat) :
    r.valueAt? (.slot i) = r.entries[i]?.map Prod.snd := by
  conv_lhs => rw [h.eq_ofEntries]
  exact valueAt?_ofEntries r.entries r.cursor i

theorem LaidOut.rangeNext_eq (h : r.LaidOut) (visit : Visitor σ ν) (s : σ) :
    r.rangeNext visit s =
      afterSweep r.cursor (sweep visit (r.cursor.revolution r.size) r.entries s) := by
  rw [h.size_eq]
  conv_lhs => rw [h.eq_ofEntries]
  exact rangeNext_ofEntries visit r.entries r.cursor h.within s

theorem LaidOut.rangeNextFrom_eq (h : r.LaidOut) (visit : Visitor σ ν) (s : σ) :
    rangeNextFrom visit r.cursor (r.size + 1) (r.next r.cursor) r s =
      some (r.rangeNext visit s) := by
  rw [h.rangeNext_eq, h.size_eq]
  have h' := rangeNextFrom_ofEntries visit r.entries r.cursor h.within s
  rwa [← h.eq_ofEntries] at h'

theorem entries_afterSweep (c : Position) (swept : Option Nat × List (κ × ν) × σ) :
    (afterSweep c swept).1.entries = swept.2.1 := entries_ofEntries _ _

def calls (r : Ring κ ν) (visit : Visitor σ ν) (s : σ) : List (Visit σ ν) :=
  visit.visits (fun i => r.valueAt? (.slot i)) (r.cursor.revolution r.size) s

theorem LaidOut.calls_eq (h : r.LaidOut) (visit : Visitor σ ν) (s : σ) :
    visit.visits (fun i => r.entries[i]?.map Prod.snd) (r.cursor.revolution r.size) s =
      r.calls visit s :=
  visits_congr visit (fun i _ => (h.valueAt? i).symm) s

theorem LaidOut.mem_revolution (h : r.LaidOut) (i : Nat) :
    i ∈ r.cursor.revolution r.size ↔ i < r.size := by
  rw [h.size_eq]
  exact Position.mem_revolution h.within i

theorem LaidOut.isSome_valueAt? (h : r.LaidOut) {i : Nat} (hi : i < r.size) :
    (r.valueAt? (.slot i)).isSome := by
  rw [h.size_eq] at hi
  rw [h.valueAt?, List.getElem?_eq_getElem hi]
  rfl

/-- A scan is told by the calls of the visitor, slot by slot. -/
theorem LaidOut.swept (h : r.LaidOut) (visit : Visitor σ ν) (s : σ) :
    ∃ stop, (r.rangeNext visit s).1.cursor = stop.elim r.cursor .slot ∧
      Swept visit (r.cursor.revolution r.size) r.entries s (r.calls visit s) stop
        (r.rangeNext visit s).1.entries (r.rangeNext visit s).2 := by
  have hm : ∀ i ∈ r.cursor.revolution r.size, i < r.entries.length := by
    intro i hi
    rw [← h.size_eq]
    exact (h.mem_revolution i).1 hi
  have hswept := swept_sweep visit (revolution_nodup r.size r.cursor) hm s
  rw [h.calls_eq] at hswept
  rw [h.rangeNext_eq, entries_afterSweep]
  exact ⟨_, rfl, hswept⟩

/-- A visitor that keeps a record leaves the same ring, and its record holds the calls. -/
theorem LaidOut.rangeNext_recording (h : r.LaidOut) (visit : Visitor σ ν) (s : σ) :
    r.rangeNext visit.recording (s, []) =
      ((r.rangeNext visit s).1, (r.rangeNext visit s).2,
        (r.calls visit s).map fun v => (v.state, v.value)) := by
  rw [h.rangeNext_eq, h.rangeNext_eq visit s, sweep_recording visit (revolution_nodup _ _),
    h.calls_eq, List.nil_append]
  rfl

/-- Slots hold what the visitor left in them, or else what they held before. -/
theorem Swept.valueAt? {r r' : Ring κ ν} (hr : r.LaidOut) (hr' : r'.LaidOut) {visit : Visitor σ ν}
    {s s' : σ} {stop : Option Nat}
    (h : Swept visit (r.cursor.revolution r.size) r.entries s (r.calls visit s) stop
      r'.entries s') :
    (∀ v ∈ r.calls visit s, r'.valueAt? (.slot v.slot) = some (visit.left v)) ∧
      ∀ i ∉ (r.calls visit s).map Visit.slot, r'.valueAt? (.slot i) = r.valueAt? (.slot i) := by
  refine ⟨fun v hv => ?_, fun i hi => ?_⟩
  · have hi : v.slot < r.size :=
      (hr.mem_revolution v.slot).1 (h.in_turn.mem (List.mem_map_of_mem hv))
    rw [hr.size_eq] at hi
    rw [hr'.valueAt?, h.visited v hv, List.getElem?_eq_getElem hi]
    rfl
  · rw [hr'.valueAt?, h.unvisited i hi, hr.valueAt?]

/-- Whatever was called on a ring, a scan ends. It calls the visitor on the slots in the order from
the one after the cursor round to the cursor's own, on each at most once and on no other, until the
visitor has enough; the visitor's own record says so. A slot that was visited holds what the visitor
left there, every other slot and all keys are as before. The cursor rests on the slot where the
visitor had enough, and stays where it was if that never came. -/
theorem rangeNext_visits_in_turn [DecidableEq κ] (before : List (RingCall κ ν))
    (visit : Visitor σ ν) (s : σ) :
    let r : Ring κ ν := run before {}
    let order := r.cursor.revolution r.size
    let calls := r.calls visit s
    let r' := (r.rangeNext visit s).1
    (rangeNextFrom visit r.cursor (r.size + 1) (r.next r.cursor) r s = some (r.rangeNext visit s) ∧
      (r.rangeNext visit s).2 = visit.final s calls ∧
        r.rangeNext visit.recording (s, []) =
          (r', visit.final s calls, calls.map fun v => (v.state, v.value))) ∧
      (order.Nodup ∧ (∀ i, i ∈ order ↔ i < r.size) ∧
        (∀ i < r.size, (r.valueAt? (.slot i)).isSome) ∧ calls.map Visit.slot <+: order) ∧
      ((∀ v ∈ calls, r'.valueAt? (.slot v.slot) = some (visit.left v)) ∧
        (∀ i ∉ calls.map Visit.slot, r'.valueAt? (.slot i) = r.valueAt? (.slot i)) ∧
        r'.entries.map Prod.fst = r.entries.map Prod.fst) ∧
      ((∀ v ∈ calls, visit.more v = false →
          calls.getLast? = some v ∧ r'.cursor = .slot v.slot) ∧
        ((∀ v ∈ calls, visit.more v = true) →
          calls.map Visit.slot = order ∧ r'.cursor = r.cursor)) ∧
      (r.isEmpty = true → calls = []) := by
  intro r order calls r'
  have h : r.LaidOut := laidOut_empty.run before
  have h' : r'.LaidOut := h.rangeNext visit s
  obtain ⟨stop, hcursor, hswept⟩ := h.swept visit s
  have hstate : (r.rangeNext visit s).2 = visit.final s calls := hswept.state
  obtain ⟨hvisited, hunvisited⟩ := hswept.valueAt? h h'
  have hkeys : r'.entries.map Prod.fst = r.entries.map Prod.fst := by
    rw [show r' = _ from congrArg Prod.fst (h.rangeNext_eq visit s), entries_afterSweep, keys_sweep]
  refine ⟨⟨h.rangeNextFrom_eq visit s, hstate, ?_⟩,
    ⟨revolution_nodup _ _, h.mem_revolution, fun i => h.isSome_valueAt?, hswept.in_turn⟩,
    ⟨hvisited, hunvisited, hkeys⟩, ⟨fun v hv he => ?_, fun hall => ?_⟩, fun hempty => ?_⟩
  · rw [← hstate]
    exact h.rangeNext_recording visit s
  · obtain ⟨hlast, rfl⟩ := hswept.enough v hv he
    exact ⟨hlast, hcursor⟩
  · obtain ⟨hslots, rfl⟩ := hswept.never hall
    exact ⟨hslots, hcursor⟩
  · have hsize : r.size = 0 := List.length_eq_zero_iff.2 (List.isEmpty_iff.1 hempty)
    have horder : order = [] := List.eq_nil_iff_forall_not_mem.2 fun i hi => by
      have hlt := (h.mem_revolution i).1 hi
      omega
    have hin : calls.map Visit.slot <+: order := hswept.in_turn
    rw [horder, List.prefix_nil, List.map_eq_nil_iff] at hin
    exact hin

end Scan

end Ring

end TenantQueue.Queue
