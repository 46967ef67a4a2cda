import TenantQueue.Proofs.Queue.Revolution
import Mathlib.Data.List.Nodup

/-! Runs of calls on a ring. Whatever is called, the ring stays laid out from its entries, each with
a key of its own, and the cursor rests on the head or on one of its slots. -/
namespace TenantQueue.Queue
variable {κ ν σ : Type}

/-- What is handed out for writing is written with `set`. -/
inductive RingCall (κ ν : Type) : Type 1 where
  | add (key : κ) (v : ν)
  | get (key : κ)
  | set (key : κ) (v : ν)
  | getOrInsert {σ : Type} (key : κ) (make : σ → ν × σ) (s : σ)
  | advance
  | range {σ : Type} (visit : σ → ν → Bool × σ) (s : σ)
  | rangeNext {σ : Type} (visit : Visitor σ ν) (s : σ)

def Position.following (n : Nat) : Position → Position
  | head => ofIndex n 0
  | slot i => if i + 1 < n then slot (i + 1) else ofIndex n 0

theorem Position.within_ofIndex (n i : Nat) : (ofIndex n i).Within n := by
  unfold ofIndex
  split
  · assumption
  · trivial

theorem Position.within_following (n : Nat) (c : Position) : (c.following n).Within n := by
  cases c with
  | head => exact within_ofIndex n 0
  | slot i =>
    simp only [following]
    split
    · assumption
    · exact within_ofIndex n 0

theorem Position.Within.mono {m n : Nat} {c : Position} (h : c.Within m) (hmn : m ≤ n) :
    c.Within n := by
  cases c with
  | head => trivial
  | slot i => exact Nat.lt_of_lt_of_le h hmn

namespace Ring

theorem advance_ofEntries (es : List (κ × ν)) {c : Position} (hc : c.Within es.length) :
    (ofEntries es c).advance.2 = ofEntries es (c.following es.length) := by
  cases c with
  | head =>
    have hcursor : (ofEntries es .head).cursor = .head := rfl
    unfold advance
    rw [hcursor, ite_self]
    rfl
  | slot i =>
    have hnext := next_slot_ofEntries es (.slot i) hc
    have hcursor : (ofEntries es (.slot i)).cursor = .slot i := rfl
    unfold advance Position.following
    rw [hcursor, hnext]
    by_cases hi : i + 1 < es.length
    · simp only [Position.ofIndex, hi, if_true, reduceCtorEq, if_false, hnext]
      rfl
    · simp only [Position.ofIndex, hi, if_false, if_true]
      rfl

section Sweep
variable (visit : Visitor σ ν)

theorem keys_modify (es : List (κ × ν)) (i : Nat) (v : ν) :
    (es.modify i fun e => (e.1, v)).map Prod.fst = es.map Prod.fst := by
  ext1 j
  by_cases hj : i = j <;> simp [hj, Option.map_map, Function.comp_def]

theorem keys_sweep (order : List Nat) (es : List (κ × ν)) (s : σ) :
    (sweep visit order es s).2.1.map Prod.fst = es.map Prod.fst := by
  induction order generalizing es s with
  | nil => rfl
  | cons i order ih =>
    unfold sweep
    cases es[i]? with
    | none => exact ih es s
    | some e =>
      dsimp only
      split
      · rw [ih, keys_modify]
      · exact keys_modify ..

/-- A sweep ends early at one of the slots it visits. -/
theorem mem_of_sweep_stop {order : List Nat} {es : List (κ × ν)} {s : σ} {i : Nat}
    (h : (sweep visit order es s).1 = some i) : i ∈ order := by
  induction order generalizing es s with
  | nil => cases h
  | cons j order ih =>
    unfold sweep at h
    cases hj : es[j]? with
    | none =>
      rw [hj] at h
      exact List.mem_cons_of_mem j (ih h)
    | some e =>
      rw [hj] at h
      dsimp only at h
      split at h
      · exact List.mem_cons_of_mem j (ih h)
      · cases h
        exact List.mem_cons_self

theorem within_afterSweep {c : Position} {es : List (κ × ν)} (hc : c.Within es.length) (s : σ) :
    ((sweep visit (c.revolution es.length) es s).1.elim c .slot).Within es.length := by
  cases h : (sweep visit (c.revolution es.length) es s).1 with
  | none => exact hc
  | some i => exact (Position.mem_revolution hc i).1 (mem_of_sweep_stop visit h)

end Sweep

structure LaidOut (r : Ring κ ν) : Prop where
  eq_ofEntries : r = ofEntries r.entries r.cursor
  within : r.cursor.Within r.entries.length
  keys_nodup : (r.entries.map Prod.fst).Nodup

theorem laidOut_ofEntries {es : List (κ × ν)} {c : Position} (hc : c.Within es.length)
    (hk : (es.map Prod.fst).Nodup) : (ofEntries es c).LaidOut := by
  have he : (ofEntries es c).entries = es := entries_ofEntries es c
  refine ⟨?_, ?_, ?_⟩
  · rw [he]
    rfl
  · rw [he]
    exact hc
  · rwa [he]

theorem laidOut_empty : ({} : Ring κ ν).LaidOut := ⟨rfl, trivial, .nil⟩

theorem LaidOut.advance {r : Ring κ ν} (h : r.LaidOut) : r.advance.2.LaidOut := by
  rw [h.eq_ofEntries, advance_ofEntries _ h.within]
  exact laidOut_ofEntries (Position.within_following _ _) h.keys_nodup

theorem LaidOut.rangeNext {r : Ring κ ν} (h : r.LaidOut) (visit : Visitor σ ν) (s : σ) :
    (r.rangeNext visit s).1.LaidOut := by
  rw [h.eq_ofEntries, rangeNext_ofEntries visit _ _ h.within]
  refine laidOut_ofEntries ?_ ?_
  · rw [length_sweep]
    exact within_afterSweep visit h.within s
  · rw [keys_sweep]
    exact h.keys_nodup

section Keyed
variable [DecidableEq κ]

omit [DecidableEq κ] in
/-- A new key comes last. -/
theorem LaidOut.append {r : Ring κ ν} (h : r.LaidOut) {key : κ} (hk : key ∉ r.entries.map Prod.fst)
    (v : ν) : (ofEntries (r.entries ++ [(key, v)]) r.cursor).LaidOut := by
  refine laidOut_ofEntries (h.within.mono (by simp)) ?_
  rw [List.map_append]
  exact List.concat_eq_append ▸ List.Nodup.concat hk h.keys_nodup

theorem LaidOut.add {r : Ring κ ν} (h : r.LaidOut) (key : κ) (v : ν) : (r.add key v).2.LaidOut := by
  rw [h.eq_ofEntries, Ring.add, lookup_index]
  split
  · rwa [← h.eq_ofEntries]
  · next hn =>
    rw [append_ofEntries]
    exact h.append ((findIdx?_eq_none_iff _ _).1 (Option.not_isSome_iff_eq_none.1 hn)) v

theorem LaidOut.set {r : Ring κ ν} (h : r.LaidOut) (key : κ) (v : ν) : (r.set key v).LaidOut := by
  rw [h.eq_ofEntries, Ring.set, lookup_index]
  split
  · rw [setValue_ofEntries]
    refine laidOut_ofEntries ?_ ?_
    · rw [List.length_modify]
      exact h.within
    · rw [keys_modify]
      exact h.keys_nodup
  · rwa [← h.eq_ofEntries]

theorem LaidOut.getOrInsert {r : Ring κ ν} (h : r.LaidOut) (key : κ) (make : σ → ν × σ) (s : σ) :
    (r.getOrInsert key make s).2.1.LaidOut := by
  rw [h.eq_ofEntries, getOrInsert_ofEntries]
  split
  · rwa [← h.eq_ofEntries]
  · next hn => exact h.append ((findIdx?_eq_none_iff _ _).1 hn) _

def after (r : Ring κ ν) : RingCall κ ν → Ring κ ν
  | .add key v => (r.add key v).2
  | .get _ => r
  | .set key v => r.set key v
  | .getOrInsert key make s => (r.getOrInsert key make s).2.1
  | .advance => r.advance.2
  | .range _ _ => r
  | .rangeNext visit s => (r.rangeNext visit s).1

def run (calls : List (RingCall κ ν)) (r : Ring κ ν) : Ring κ ν := calls.foldl after r

theorem LaidOut.after {r : Ring κ ν} (h : r.LaidOut) (call : RingCall κ ν) :
    (r.after call).LaidOut := by
  cases call with
  | add key v => exact h.add key v
  | get key => exact h
  | set key v => exact h.set key v
  | getOrInsert key make s => exact h.getOrInsert key make s
  | advance => exact h.advance
  | range visit s => exact h
  | rangeNext visit s => exact h.rangeNext visit s

theorem LaidOut.run {r : Ring κ ν} (h : r.LaidOut) (calls : List (RingCall κ ν)) :
    (r.run calls).LaidOut := by
  induction calls generalizing r with
  | nil => exact h
  | cons call calls ih => exact ih (h.after call)

end Keyed

end Ring

end TenantQueue.Queue
