import TenantQueue.Keyed
import Mathlib.Algebra.GroupWithZero.Nat
import Mathlib.Data.List.Induction
import Mathlib.Data.List.Sort
import Mathlib.Data.String.Basic

/-! The keys of a keyed collection ascend, whatever was done to it, so that each has one value and the
entries are known from what is found under the keys. -/
namespace TenantQueue.Keyed
variable {ν : Type}

theorem mem_keys_alterIn (key k : String) (f : Option ν → ν) (es : List (String × ν)) :
    k ∈ (alterIn key f es).map Prod.fst ↔ k = key ∨ k ∈ es.map Prod.fst := by
  induction es with
  | nil => simp [alterIn]
  | cons e es ih =>
    unfold alterIn
    by_cases he : key = e.1
    · rw [if_pos he]
      simp [he]
    · rw [if_neg he]
      by_cases hlt : key < e.1
      · rw [if_pos hlt]
        simp
      · rw [if_neg hlt, List.map_cons, List.map_cons, List.mem_cons, List.mem_cons, ih]
        exact or_left_comm

theorem pairwise_alterIn (key : String) (f : Option ν → ν) {es : List (String × ν)}
    (h : (es.map Prod.fst).Pairwise (· < ·)) :
    ((alterIn key f es).map Prod.fst).Pairwise (· < ·) := by
  induction es with
  | nil => simp [alterIn]
  | cons e es ih =>
    unfold alterIn
    obtain ⟨hfirst, hrest⟩ := List.pairwise_cons.1 h
    by_cases he : key = e.1
    · rw [if_pos he]
      refine List.pairwise_cons.2 ⟨?_, hrest⟩
      rw [he]
      exact hfirst
    · rw [if_neg he]
      by_cases hlt : key < e.1
      · rw [if_pos hlt]
        refine List.pairwise_cons.2 ⟨fun k hk => ?_, h⟩
        cases List.mem_cons.1 hk with
        | inl e =>
          subst e
          exact hlt
        | inr hk =>
          exact hlt.trans (hfirst k hk)
      · rw [if_neg hlt]
        refine List.pairwise_cons.2 ⟨fun k hk => ?_, ih hrest⟩
        cases (mem_keys_alterIn key k f es).1 hk with
        | inl e =>
          subst e
          exact lt_of_le_of_ne (not_lt.1 hlt) (Ne.symm he)
        | inr hk =>
          exact hfirst k hk

theorem lookup_entry (k : String) (e : String × ν) (es : List (String × ν)) :
    (e :: es).lookup k = if k = e.1 then some e.2 else es.lookup k := by
  rw [List.lookup_cons]
  by_cases hk : k = e.1
  · simp [hk]
  · have hb : (k == e.1) = false := beq_false_of_ne hk
    simp [hk, hb]

theorem lookup_alterIn (key k : String) (f : Option ν → ν) {es : List (String × ν)}
    (h : (es.map Prod.fst).Pairwise (· < ·)) :
    (alterIn key f es).lookup k = if k = key then some (f (es.lookup key)) else es.lookup k := by
  induction es with
  | nil => exact lookup_entry k (key, f none) []
  | cons e es ih =>
    obtain ⟨hfirst, hrest⟩ := List.pairwise_cons.1 h
    rw [alterIn, lookup_entry key e es]
    by_cases he : key = e.1
    · rw [if_pos he, if_pos he, lookup_entry, lookup_entry, ← he]
      by_cases hk : k = key <;> simp only [hk, if_true, if_false]
    · rw [if_neg he, if_neg he]
      by_cases hlt : key < e.1
      · have hnone : es.lookup key = none := by
          refine List.lookup_eq_none_iff.2 fun p hp => ?_
          have hle : key < p.1 := hlt.trans (hfirst p.1 (List.mem_map_of_mem hp))
          exact bne_iff_ne.2 hle.ne
        rw [if_pos hlt, lookup_entry, hnone]
      · rw [if_neg hlt, lookup_entry, lookup_entry, ih hrest]
        by_cases hk : k = key
        · simp only [hk, if_true, if_neg he]
        · simp only [hk, if_false]

theorem sum_alterIn (key : String) (es : List (String × Nat)) :
    ((alterIn key (fun n => n.getD 0 + 1) es).map Prod.snd).sum = (es.map Prod.snd).sum + 1 := by
  induction es with
  | nil => rfl
  | cons e es ih =>
    unfold alterIn
    split
    · simp only [Option.getD_some, List.map_cons, List.sum_cons]
      omega
    · split
      · simp only [Option.getD_none, List.map_cons, List.sum_cons]
        omega
      · simp only [List.map_cons, List.sum_cons, ih]
        omega

def Ascending (m : Keyed ν) : Prop := m.keys.Pairwise (· < ·)

theorem ascending_empty : ({} : Keyed ν).Ascending := .nil

variable {m : Keyed ν}

theorem Ascending.alter (h : m.Ascending) (key : String) (f : Option ν → ν) :
    (m.alter key f).Ascending := pairwise_alterIn key f h

theorem Ascending.get?_alter (h : m.Ascending) (key k : String) (f : Option ν → ν) :
    (m.alter key f).get? k = if k = key then some (f (m.get? key)) else m.get? k :=
  lookup_alterIn key k f h

theorem mem_keys_alter (m : Keyed ν) (key k : String) (f : Option ν → ν) :
    k ∈ (m.alter key f).keys ↔ k = key ∨ k ∈ m.keys := mem_keys_alterIn key k f m.entries

theorem Ascending.nodup (h : m.Ascending) : m.keys.Nodup := h.imp ne_of_lt

theorem ascending_ofList (entries : List (String × ν)) : (ofList entries).Ascending := by
  suffices h : ∀ m : Keyed ν, m.Ascending →
      (entries.foldl (fun m entry => m.insert entry.1 entry.2) m).Ascending from
    h {} ascending_empty
  induction entries with
  | nil => exact fun m hm => hm
  | cons e entries ih => exact fun m hm => ih _ (hm.alter e.1 _)

theorem ofList_concat (entries : List (String × ν)) (e : String × ν) :
    ofList (entries ++ [e]) = (ofList entries).insert e.1 e.2 := List.foldl_concat ..

theorem mem_keys_ofList (entries : List (String × ν)) (k : String) :
    k ∈ (ofList entries).keys ↔ k ∈ entries.map Prod.fst := by
  induction entries using List.reverseRecOn with
  | nil => rfl
  | append_singleton entries e ih =>
    rw [ofList_concat, insert, mem_keys_alter, ih, List.map_append, List.mem_append, or_comm]
    simp

theorem isEmpty_ofList (entries : List (String × ν)) :
    (ofList entries).isEmpty = entries.isEmpty := by
  cases entries with
  | nil => rfl
  | cons e rest =>
    have hkey : e.1 ∈ (ofList (e :: rest)).keys := (mem_keys_ofList _ _).2 (by simp)
    exact List.isEmpty_eq_false_iff.2 (mt List.map_eq_nil_iff.2 (List.ne_nil_of_mem hkey))

/-- Under each key is the value of its last entry. -/
theorem get?_ofList (entries : List (String × ν)) (k : String) :
    (ofList entries).get? k = entries.reverse.lookup k := by
  induction entries using List.reverseRecOn with
  | nil => rfl
  | append_singleton entries e ih =>
    rw [ofList_concat, insert, (ascending_ofList entries).get?_alter, ih, List.reverse_append,
      List.reverse_singleton, List.singleton_append, lookup_entry]

theorem Ascending.get?_eq_some (h : m.Ascending) {e : String × ν} (he : e ∈ m.entries) :
    m.get? e.1 = some e.2 := by
  obtain ⟨front, back, hs⟩ := List.append_of_mem he
  refine List.lookup_eq_some_iff.2 ⟨front, back, hs, fun p hp => ?_⟩
  have hlt : p.1 < e.1 := by
    have hk := h
    rw [Ascending, keys, hs, List.map_append, List.pairwise_append] at hk
    exact hk.2.2 p.1 (List.mem_map_of_mem hp) e.1 (by simp)
  simpa using hlt.ne'

theorem mem_of_get? {k : String} {v : ν} (h : m.get? k = some v) : (k, v) ∈ m.entries := by
  obtain ⟨front, back, hs, -⟩ := List.lookup_eq_some_iff.1 h
  simp [hs]

theorem mem_keys_of_get? {k : String} {v : ν} (h : m.get? k = some v) : k ∈ m.keys :=
  List.mem_map_of_mem (mem_of_get? h)

theorem Ascending.exists_get? (h : m.Ascending) {k : String} (hk : k ∈ m.keys) :
    ∃ v, m.get? k = some v := by
  obtain ⟨e, he, rfl⟩ := List.mem_map.1 hk
  exact ⟨e.2, h.get?_eq_some he⟩

theorem Ascending.mem_entries_iff (h : m.Ascending) (e : String × ν) :
    e ∈ m.entries ↔ m.get? e.1 = some e.2 := ⟨h.get?_eq_some, mem_of_get?⟩

/-- Collections in which the same is found under every key are equal. -/
theorem Ascending.ext {m' : Keyed ν} (h : m.Ascending) (h' : m'.Ascending)
    (he : ∀ k, m.get? k = m'.get? k) : m = m' := by
  have hmem (e : String × ν) : e ∈ m.entries ↔ e ∈ m'.entries := by
    rw [h.mem_entries_iff, h'.mem_entries_iff, he]
  have hasymm : Std.Asymm (fun e e' : String × ν => e.1 < e'.1) := ⟨fun _ _ => lt_asymm⟩
  have hentries : m.entries = m'.entries :=
    List.Pairwise.eq_of_mem_iff (List.pairwise_map.1 h) (List.pairwise_map.1 h') hmem
  cases m
  exact congrArg Keyed.mk hentries

/-- Collections with the same keys, all of one value, are equal. -/
theorem Ascending.eq_const (h : m.Ascending) {keys : List String} (hk : keys.Pairwise (· < ·))
    (hm : ∀ k, k ∈ m.keys ↔ k ∈ keys) {v : ν} (hv : ∀ k ∈ keys, m.get? k = some v) :
    m = ⟨keys.map (·, v)⟩ := by
  have he : m.keys = keys := List.Pairwise.eq_of_mem_iff h hk hm
  have hc : m.entries.map (fun e => (e.1, v)) = m.entries := by
    refine (List.map_congr_left fun e hmem => ?_).trans (List.map_id _)
    have := (h.get?_eq_some hmem).symm.trans
      (hv e.1 ((hm e.1).1 (List.mem_map_of_mem hmem)))
    exact Prod.ext rfl (Option.some.inj this).symm
  rw [← he, Keyed.keys, List.map_map]
  cases m
  exact congrArg Keyed.mk hc.symm

end TenantQueue.Keyed
