import TenantQueue.Queue.Ring
import Mathlib.Data.List.Basic

/-! Every ring that calls can lead to is laid out from its entries: slot `i` holds the value of entry
`i`, is followed by slot `i + 1` or by the head, and is where the index finds the entry's key. Each
operation on a laid out ring is an operation on its entries. -/
namespace TenantQueue.Queue
variable {κ ν σ : Type}

/-- Slot `i` of `n`; past the last one comes the head. -/
def Position.ofIndex (n i : Nat) : Position := if i < n then .slot i else .head

def Position.final : Nat → Position
  | 0 => .head
  | n + 1 => .slot n

namespace Ring

def ofEntries (entries : List (κ × ν)) (cursor : Position) : Ring κ ν where
  slots := entries.mapIdx fun i entry => ⟨entry.2, .ofIndex entries.length (i + 1)⟩
  index := entries.mapIdx fun i entry => (entry.1, i)
  first := .ofIndex entries.length 0
  last := .final entries.length
  cursor

def entries (r : Ring κ ν) : List (κ × ν) :=
  r.index.filterMap fun entry => (r.valueAt? (.slot entry.2)).map (entry.1, ·)

section Views
variable (es : List (κ × ν)) (c : Position)

theorem size_ofEntries : (ofEntries es c).size = es.length := by simp [size, ofEntries]

theorem length_slots_ofEntries : (ofEntries es c).slots.length = es.length := by simp [ofEntries]

theorem next_head_ofEntries : (ofEntries es c).next .head = .ofIndex es.length 0 := rfl

theorem next_slot_ofEntries {i : Nat} (h : i < es.length) :
    (ofEntries es c).next (.slot i) = .ofIndex es.length (i + 1) := by
  simp [next, ofEntries, h]

theorem valueAt?_ofEntries (i : Nat) :
    (ofEntries es c).valueAt? (.slot i) = es[i]?.map Prod.snd := by
  simp only [valueAt?, ofEntries, List.getElem?_mapIdx, Option.map_map]
  rfl

theorem entries_ofEntries : (ofEntries es c).entries = es := by
  have h (i : Nat) (e : κ × ν) (hi : es[i]? = some e) :
      ((ofEntries es c).valueAt? (.slot i)).map (e.1, ·) = some e := by
    simp [valueAt?_ofEntries, hi]
  have hm : (ofEntries es c).entries =
      (es.mapIdx fun i e => (e.1, i)).filterMap fun entry =>
        ((ofEntries es c).valueAt? (.slot entry.2)).map (entry.1, ·) := rfl
  rw [hm, List.mapIdx_eq_zipIdx_map, List.filterMap_map]
  calc es.zipIdx.filterMap _
      = es.zipIdx.filterMap (some ∘ Prod.fst) := List.filterMap_congr fun e he =>
          h e.2 e.1 (List.mem_zipIdx_iff_getElem?.1 he)
    _ = es := by simp

theorem setValue_ofEntries (i : Nat) (v : ν) :
    (ofEntries es c).setValue i v = ofEntries (es.modify i fun e => (e.1, v)) c := by
  simp only [setValue, ofEntries, List.length_modify, Ring.mk.injEq, and_true]
  constructor
  · ext1 j
    by_cases h : i = j <;> simp [h, Option.map_map, Function.comp_def]
  · ext1 j
    by_cases h : i = j <;> simp [h, Option.map_map, Function.comp_def]

theorem append_ofEntries (k : κ) (v : ν) :
    (ofEntries es c).append k v = ofEntries (es ++ [(k, v)]) c := by
  have hl : (ofEntries es c).last = .final es.length := rfl
  cases h : es.length with
  | zero =>
    rw [List.length_eq_zero_iff] at h
    subst h
    rfl
  | succ n =>
    simp only [append, hl, h, Position.final]
    simp only [ofEntries, List.mapIdx_append, List.length_append, List.length_mapIdx, h,
      List.length_singleton, Ring.mk.injEq, and_true]
    refine ⟨?_, by simp [List.mapIdx_cons], by simp [Position.ofIndex], rfl⟩
    ext1 j
    by_cases hj : n = j
    · subst hj
      simp only [Position.ofIndex, Nat.add_lt_add_iff_right, List.getElem?_modify_eq,
        List.getElem?_append, List.length_mapIdx, h, Nat.lt_add_one, if_true, getElem?_pos,
        List.getElem_mapIdx, Nat.lt_irrefl, if_false, Option.map_eq_map, Option.map_some]
    · rcases Nat.lt_trichotomy j (n + 1) with hlt | heq | hgt
      · have hle : j ≤ n := by omega
        have hnext : j + 1 ≤ n := by omega
        have hnext' : j + 1 ≤ n + 1 := by omega
        simp only [Position.ofIndex, Nat.lt_succ_iff, ne_eq, hj, not_false_eq_true,
          List.getElem?_modify_ne, List.getElem?_append, List.length_mapIdx, h, hle, hnext, hnext',
          if_true, getElem?_pos, List.getElem_mapIdx]
      · subst heq
        simp [h, Position.ofIndex]
      · have h₁ : ¬ j < n + 1 := by omega
        have h₂ : ¬ j - (n + 1) = 0 := by omega
        simp [List.getElem?_append, h, hj, h₁, h₂]

def tour (visit : σ → ν → Bool × σ) : List ν → σ → σ
  | [], s => s
  | v :: rest, s => if (visit s v).1 then tour visit rest (visit s v).2 else (visit s v).2

theorem rangeFrom_ofEntries (visit : σ → ν → Bool × σ) (k i : Nat) (s : σ)
    (h : i + k = es.length) :
    rangeFrom (ofEntries es c) visit k (.ofIndex es.length i) s =
      tour visit ((es.drop i).map Prod.snd) s := by
  induction k generalizing i s with
  | zero => rw [List.drop_eq_nil_of_le (by omega)]; rfl
  | succ k ih =>
    have hi : i < es.length := by omega
    have hp : Position.ofIndex es.length i = .slot i := if_pos hi
    rw [rangeFrom, hp, valueAt?_ofEntries, List.getElem?_eq_getElem hi,
      List.drop_eq_getElem_cons hi, List.map_cons, tour]
    simp only [Option.map_some]
    rw [next_slot_ofEntries es c hi, ih (i + 1) _ (by omega)]

theorem range_ofEntries (visit : σ → ν → Bool × σ) (s : σ) :
    (ofEntries es c).range visit s = tour visit (es.map Prod.snd) s := by
  rw [range, length_slots_ofEntries]
  exact rangeFrom_ofEntries es c visit es.length 0 s (Nat.zero_add _)

end Views

section Keyed
variable [BEq κ] (es : List (κ × ν)) (c : Position)

theorem lookup_mapIdx (k : κ) (m : Nat) :
    (es.mapIdx fun i e => (e.1, i + m)).lookup k =
      (es.findIdx? fun e => k == e.1).map (· + m) := by
  induction es generalizing m with
  | nil => rfl
  | cons e es ih =>
    rw [List.mapIdx_cons, List.lookup_cons, List.findIdx?_cons]
    cases k == e.1 with
    | true => simp
    | false => simpa [Nat.add_assoc, Nat.add_comm 1 m, Function.comp_def] using ih (m + 1)

theorem lookup_index (k : κ) :
    (ofEntries es c).index.lookup k = es.findIdx? fun e => k == e.1 := by
  simpa [ofEntries] using lookup_mapIdx es k 0

theorem findIdx?_bind (k : κ) :
    ((es.findIdx? fun e => k == e.1).bind fun i => es[i]?.map Prod.snd) = es.lookup k := by
  induction es with
  | nil => rfl
  | cons e es ih =>
    rw [List.findIdx?_cons, List.lookup_cons]
    cases k == e.1 with
    | true => rfl
    | false => simpa [Option.bind_map, Function.comp_def] using ih

theorem findIdx?_eq_none_iff [LawfulBEq κ] (k : κ) :
    (es.findIdx? fun e => k == e.1) = none ↔ k ∉ es.map Prod.fst := by
  rw [List.findIdx?_eq_none_iff, List.mem_map]
  constructor
  · rintro hn ⟨e, he, rfl⟩
    simpa using hn e he
  · intro hn e he
    exact beq_false_of_ne fun hk => hn ⟨e, he, hk.symm⟩

theorem get?_ofEntries (k : κ) : (ofEntries es c).get? k = es.lookup k := by
  simp only [get?, lookup_index, valueAt?_ofEntries]
  exact findIdx?_bind es k

def assign (k : κ) (v : ν) : List (κ × ν) → List (κ × ν)
  | [] => [(k, v)]
  | e :: es => if k == e.1 then (e.1, v) :: es else e :: assign k v es

theorem assign_of_findIdx? {k : κ} {i : Nat} (v : ν)
    (h : (es.findIdx? fun e => k == e.1) = some i) :
    assign k v es = es.modify i fun e => (e.1, v) := by
  induction es generalizing i with
  | nil => cases h
  | cons e es ih =>
    rw [List.findIdx?_cons] at h
    unfold assign
    cases hk : k == e.1 with
    | true =>
      rw [hk] at h
      cases h
      rfl
    | false =>
      rw [hk] at h
      obtain ⟨j, hj, rfl⟩ := Option.map_eq_some_iff.1 h
      simp [ih hj]

theorem assign_of_getElem? [LawfulBEq κ] {es : List (κ × ν)} (hk : (es.map Prod.fst).Nodup)
    {i : Nat} {e : κ × ν} (hi : es[i]? = some e) (v : ν) :
    assign e.1 v es = es.modify i fun e => (e.1, v) := by
  obtain ⟨hlt, rfl⟩ := List.getElem?_eq_some_iff.1 hi
  refine assign_of_findIdx? es v ?_
  refine List.findIdx?_eq_some_iff_getElem.2 ⟨hlt, by simp, fun j hj he => ?_⟩
  have hne := List.pairwise_iff_getElem.1 hk j i (by simp; omega) (by simpa) hj
  simp_all

theorem assign_of_lookup_none {k : κ} (v : ν) (h : es.lookup k = none) :
    assign k v es = es ++ [(k, v)] := by
  induction es with
  | nil => rfl
  | cons e es ih =>
    rw [List.lookup_cons] at h
    unfold assign
    cases hk : k == e.1 with
    | true => simp [hk] at h
    | false =>
      rw [hk] at h
      simp [ih h]

theorem set_ofEntries {k : κ} (v : ν) (h : es.lookup k ≠ none) :
    (ofEntries es c).set k v = ofEntries (assign k v es) c := by
  rw [set, lookup_index]
  cases hi : es.findIdx? fun e => k == e.1 with
  | none =>
    rw [← findIdx?_bind, hi] at h
    exact absurd rfl h
  | some i => rw [assign_of_findIdx? es v hi, ← setValue_ofEntries]

theorem getOrInsert_ofEntries (k : κ) (make : σ → ν × σ) (s : σ) :
    (ofEntries es c).getOrInsert k make s =
      match es.findIdx? fun e => k == e.1 with
      | some i => ((i, true), ofEntries es c, s)
      | none => ((es.length, false), ofEntries (es ++ [(k, (make s).1)]) c, (make s).2) := by
  rw [getOrInsert, lookup_index]
  cases h : es.findIdx? fun e => k == e.1 with
  | some i => rfl
  | none =>
    simp only [h, add, lookup_index, append_ofEntries, length_slots_ofEntries, Option.isSome_none,
      Bool.false_eq_true, if_false]

theorem lookup_assign [LawfulBEq κ] (j k : κ) (v : ν) :
    (assign k v es).lookup j = if j == k then some v else es.lookup j := by
  induction es with
  | nil => rw [assign, List.lookup_cons]; cases j == k <;> rfl
  | cons e es ih =>
    unfold assign
    cases hk : k == e.1 with
    | true =>
      rw [LawfulBEq.eq_of_beq hk, if_pos rfl, List.lookup_cons, List.lookup_cons]
      cases j == e.1 <;> rfl
    | false =>
      rw [if_neg Bool.false_ne_true, List.lookup_cons, List.lookup_cons, ih]
      cases hj : j == e.1 with
      | false => rfl
      | true =>
        have : (j == k) = false := by
          rw [LawfulBEq.eq_of_beq hj]
          simpa [BEq.comm] using hk
        simp [this]

theorem keys_assign [LawfulBEq κ] (k : κ) (v : ν) :
    (assign k v es).map Prod.fst =
      if k ∈ es.map Prod.fst then es.map Prod.fst else es.map Prod.fst ++ [k] := by
  induction es with
  | nil => rfl
  | cons e es ih =>
    unfold assign
    by_cases hk : k = e.1
    · simp [hk]
    · by_cases hm : k ∈ es.map Prod.fst
      · rw [if_pos hm] at ih
        simp_all
      · rw [if_neg hm] at ih
        simp_all

end Keyed

end Ring

end TenantQueue.Queue
