import TenantQueue.Proofs.Queue.Scan

/-! What a ring is to its users: a list of keys with their values, in the order of insertion, with a
cursor on it. Whatever is called on a ring, the list that the same calls make gives the same
answers. -/
namespace TenantQueue.Queue
variable {κ ν σ : Type}

structure Listing (κ ν : Type) where
  entries : List (κ × ν) := []
  cursor : Position := .head
  deriving DecidableEq, Repr

namespace RingCall

/-- What a call gives back. Of a slot that is handed out for writing it is the value there. -/
def Answer : RingCall κ ν → Type
  | add _ _ => Bool
  | get _ => Option ν
  | set _ _ => Option ν
  | @getOrInsert _ _ σ _ _ _ => (Option ν × Bool) × σ
  | advance => Option ν
  | @range _ _ σ _ _ => σ
  | @rangeNext _ _ σ _ _ => σ

def inserts? : RingCall κ ν → Option κ
  | add key _ => some key
  | getOrInsert key _ _ => some key
  | _ => none

def steps : RingCall κ ν → Bool
  | advance => true
  | rangeNext _ _ => true
  | _ => false

end RingCall

namespace Listing

def keys (t : Listing κ ν) : List κ := t.entries.map Prod.fst

def values (t : Listing κ ν) : List ν := t.entries.map Prod.snd

def size (t : Listing κ ν) : Nat := t.entries.length

def valueAt? (t : Listing κ ν) : Position → Option ν
  | .head => none
  | .slot i => t.values[i]?

def advance (t : Listing κ ν) : Option ν × Listing κ ν :=
  let next := t.cursor.following t.size
  (t.valueAt? next, { t with cursor := next })

def range (t : Listing κ ν) (visit : σ → ν → Bool × σ) (s : σ) : σ := Ring.tour visit t.values s

def rangeNext (t : Listing κ ν) (visit : Visitor σ ν) (s : σ) : Listing κ ν × σ :=
  let (stop, entries, s) := Ring.sweep visit (t.cursor.revolution t.size) t.entries s
  (⟨entries, stop.elim t.cursor .slot⟩, s)

section Keyed
variable [DecidableEq κ]

def get? (t : Listing κ ν) (key : κ) : Option ν := t.entries.lookup key

def add (t : Listing κ ν) (key : κ) (v : ν) : Bool × Listing κ ν :=
  if key ∈ t.keys then (false, t) else (true, { t with entries := t.entries ++ [(key, v)] })

def set (t : Listing κ ν) (key : κ) (v : ν) : Listing κ ν :=
  if key ∈ t.keys then { t with entries := Ring.assign key v t.entries } else t

def getOrInsert (t : Listing κ ν) (key : κ) (make : σ → ν × σ) (s : σ) :
    (Option ν × Bool) × Listing κ ν × σ :=
  if key ∈ t.keys then ((t.get? key, true), t, s)
  else ((some (make s).1, false), (t.add key (make s).1).2, (make s).2)

def after (t : Listing κ ν) : RingCall κ ν → Listing κ ν
  | .add key v => (t.add key v).2
  | .get _ => t
  | .set key v => t.set key v
  | .getOrInsert key make s => (t.getOrInsert key make s).2.1
  | .advance => t.advance.2
  | .range _ _ => t
  | .rangeNext visit s => (t.rangeNext visit s).1

def answer (t : Listing κ ν) : (call : RingCall κ ν) → call.Answer
  | .add key v => (t.add key v).1
  | .get key => t.get? key
  | .set key _ => t.get? key
  | .getOrInsert key make s => ((t.getOrInsert key make s).1, (t.getOrInsert key make s).2.2)
  | .advance => t.advance.1
  | .range visit s => t.range visit s
  | .rangeNext visit s => (t.rangeNext visit s).2

def run (calls : List (RingCall κ ν)) (t : Listing κ ν) : Listing κ ν := calls.foldl after t

end Keyed

def ring (t : Listing κ ν) : Ring κ ν := Ring.ofEntries t.entries t.cursor

end Listing

namespace Ring

def listing (r : Ring κ ν) : Listing κ ν := ⟨r.entries, r.cursor⟩

theorem listing_ring (t : Listing κ ν) : t.ring.listing = t := by
  rw [listing, Listing.ring, entries_ofEntries]
  rfl

variable {r : Ring κ ν}

theorem LaidOut.ring_listing (h : r.LaidOut) : r.listing.ring = r := h.eq_ofEntries.symm

section Keyed
variable [DecidableEq κ]

def answer (r : Ring κ ν) : (call : RingCall κ ν) → call.Answer
  | .add key v => (r.add key v).1
  | .get key => r.get? key
  | .set key _ => r.get? key
  | .getOrInsert key make s =>
    let ((i, existed), r', s') := r.getOrInsert key make s
    ((r'.valueAt? (.slot i), existed), s')
  | .advance => r.advance.1
  | .range visit s => r.range visit s
  | .rangeNext visit s => (r.rangeNext visit s).2

theorem lookup_eq_none_iff (es : List (κ × ν)) (key : κ) :
    es.lookup key = none ↔ key ∉ es.map Prod.fst := by
  rw [List.lookup_eq_none_iff, List.mem_map]
  constructor
  · rintro hn ⟨e, he, rfl⟩
    simpa using hn e he
  · intro hn e he
    refine bne_iff_ne.2 ?_
    rintro rfl
    exact hn ⟨e, he, rfl⟩

end Keyed

end Ring

namespace Listing
open Queue.Ring
variable [DecidableEq κ] {t : Listing κ ν}

theorem get?_ring (t : Listing κ ν) (key : κ) : t.ring.get? key = t.get? key :=
  get?_ofEntries t.entries t.cursor key

theorem index_ring (t : Listing κ ν) (key : κ) :
    t.ring.index.lookup key = t.entries.findIdx? fun e => key == e.1 :=
  lookup_index t.entries t.cursor key

theorem index_ring_eq_none_iff (t : Listing κ ν) (key : κ) :
    t.ring.index.lookup key = none ↔ key ∉ t.keys := by
  rw [index_ring]
  exact findIdx?_eq_none_iff t.entries key

theorem get?_eq_none_iff (t : Listing κ ν) (key : κ) : t.get? key = none ↔ key ∉ t.keys :=
  lookup_eq_none_iff t.entries key

omit [DecidableEq κ] in
theorem valueAt?_ring (t : Listing κ ν) (p : Position) : t.ring.valueAt? p = t.valueAt? p := by
  cases p with
  | head => rfl
  | slot i =>
    rw [valueAt?, values, List.getElem?_map]
    exact valueAt?_ofEntries t.entries t.cursor i

theorem add_ring (t : Listing κ ν) (key : κ) (v : ν) :
    t.ring.add key v = ((t.add key v).1, (t.add key v).2.ring) := by
  unfold Ring.add add
  by_cases hk : key ∈ t.keys
  · have hs : (t.ring.index.lookup key).isSome = true :=
      Option.isSome_iff_ne_none.2 fun hn => (t.index_ring_eq_none_iff key).1 hn hk
    rw [if_pos hs, if_pos hk]
  · have hs : ¬ (t.ring.index.lookup key).isSome = true := by
      rw [(t.index_ring_eq_none_iff key).2 hk]
      exact Bool.false_ne_true
    rw [if_neg hs, if_neg hk]
    exact congrArg (Prod.mk true) (append_ofEntries t.entries t.cursor key v)

theorem set_ring (t : Listing κ ν) (key : κ) (v : ν) : t.ring.set key v = (t.set key v).ring := by
  unfold set
  by_cases hk : key ∈ t.keys
  · rw [if_pos hk]
    exact set_ofEntries t.entries t.cursor v fun hn => (t.get?_eq_none_iff key).1 hn hk
  · rw [if_neg hk, Ring.set, (t.index_ring_eq_none_iff key).2 hk]

/-- A slot that the index knows is handed out as it is. -/
theorem getOrInsert_of_lookup {r : Ring κ ν} {key : κ} {i : Nat} (h : r.index.lookup key = some i)
    (make : σ → ν × σ) (s : σ) :
    r.getOrInsert key make s = ((i, true), r, s) ∧ r.valueAt? (.slot i) = r.get? key ∧
      ∀ w, r.setValue i w = r.set key w := by
  refine ⟨?_, ?_, fun w => ?_⟩
  · rw [Ring.getOrInsert, h]
  · rw [Ring.get?, h, Option.bind_some]
  · rw [Ring.set, h]

/-- A key that is missing gets the slot after the last, and only for it the value is made. -/
theorem getOrInsert_ring_of_missing {key : κ} (hk : key ∉ t.keys) (make : σ → ν × σ) (s : σ) :
    t.ring.getOrInsert key make s = ((t.size, false), (t.add key (make s).1).2.ring, (make s).2) := by
  have hnone : (t.entries.findIdx? fun e => key == e.1) = none :=
    (findIdx?_eq_none_iff t.entries key).2 hk
  rw [add, if_neg hk, ring, getOrInsert_ofEntries, hnone]
  rfl

/-- To get a key or insert it changes the list as adding it with the value that would be made. -/
theorem after_getOrInsert (t : Listing κ ν) (key : κ) (make : σ → ν × σ) (s : σ) :
    t.after (.getOrInsert key make s) = t.after (.add key (make s).1) := by
  by_cases hk : key ∈ t.keys
  · simp only [after, getOrInsert, add, if_pos hk]
  · simp only [after, getOrInsert, if_neg hk]

theorem index_add {key : κ} (hk : key ∉ t.keys) (v : ν) :
    (t.add key v).2.ring.index.lookup key = some t.size := by
  have hnone : (t.entries.findIdx? fun e => key == e.1) = none :=
    (findIdx?_eq_none_iff t.entries key).2 hk
  rw [index_ring, add, if_neg hk, List.findIdx?_append, hnone]
  simp [size]

theorem get?_add {key : κ} (hk : key ∉ t.keys) (v : ν) : (t.add key v).2.get? key = some v := by
  have hmissing : t.entries.lookup key = none := (t.get?_eq_none_iff key).2 hk
  rw [add, if_neg hk, get?, ← assign_of_lookup_none t.entries v hmissing, lookup_assign,
    beq_self_eq_true, if_pos rfl]

theorem getOrInsert_ring (t : Listing κ ν) (key : κ) (make : σ → ν × σ) (s : σ) :
    (t.ring.getOrInsert key make s).2 =
        ((t.getOrInsert key make s).2.1.ring, (t.getOrInsert key make s).2.2) ∧
      ((t.ring.getOrInsert key make s).2.1.valueAt? (.slot (t.ring.getOrInsert key make s).1.1),
          (t.ring.getOrInsert key make s).1.2) = (t.getOrInsert key make s).1 := by
  unfold getOrInsert
  by_cases hk : key ∈ t.keys
  · obtain ⟨i, hi⟩ := Option.ne_none_iff_exists'.1 fun hn => (t.index_ring_eq_none_iff key).1 hn hk
    obtain ⟨he, hv, -⟩ := getOrInsert_of_lookup hi make s
    rw [if_pos hk, he, hv, get?_ring]
    exact ⟨rfl, rfl⟩
  · have hv := (getOrInsert_of_lookup (index_add hk (make s).1) make s).2.1
    rw [if_neg hk, getOrInsert_ring_of_missing hk, hv, get?_ring, get?_add hk]
    exact ⟨rfl, rfl⟩

omit [DecidableEq κ] in
theorem advance_ring (hc : t.cursor.Within t.size) :
    t.ring.advance = (t.advance.1, t.advance.2.ring) := by
  have hring : t.ring.advance.2 = t.advance.2.ring := advance_ofEntries t.entries hc
  have hvalue : t.ring.advance.1 = t.ring.valueAt? t.ring.advance.2.cursor := rfl
  rw [valueAt?_ring, hring] at hvalue
  exact Prod.ext hvalue hring

omit [DecidableEq κ] in
theorem rangeNext_ring (hc : t.cursor.Within t.size) (visit : Visitor σ ν) (s : σ) :
    t.ring.rangeNext visit s = ((t.rangeNext visit s).1.ring, (t.rangeNext visit s).2) :=
  rangeNext_ofEntries visit t.entries t.cursor hc s

theorem after_ring (hc : t.cursor.Within t.size) (call : RingCall κ ν) :
    t.ring.after call = (t.after call).ring := by
  cases call with
  | add key v => exact congrArg Prod.snd (t.add_ring key v)
  | get key => rfl
  | set key v => exact t.set_ring key v
  | getOrInsert key make s => exact congrArg Prod.fst (t.getOrInsert_ring key make s).1
  | advance => exact congrArg Prod.snd (advance_ring hc)
  | range visit s => rfl
  | rangeNext visit s => exact congrArg Prod.fst (rangeNext_ring hc visit s)

theorem answer_ring (hc : t.cursor.Within t.size) (call : RingCall κ ν) :
    t.ring.answer call = t.answer call := by
  cases call with
  | add key v => exact congrArg Prod.fst (t.add_ring key v)
  | get key => exact t.get?_ring key
  | set key v => exact t.get?_ring key
  | getOrInsert key make s =>
    obtain ⟨hrest, hslot⟩ := t.getOrInsert_ring key make s
    exact congrArg₂ Prod.mk hslot (congrArg Prod.snd hrest)
  | advance => exact congrArg Prod.fst (advance_ring hc)
  | range visit s => exact range_ofEntries t.entries t.cursor visit s
  | rangeNext visit s => exact congrArg Prod.snd (rangeNext_ring hc visit s)

end Listing

namespace Ring
open Listing
variable [DecidableEq κ] {r : Ring κ ν}

theorem LaidOut.listing_after (h : r.LaidOut) (call : RingCall κ ν) :
    (r.after call).listing = r.listing.after call := by
  have hr := after_ring (t := r.listing) h.within call
  rw [h.ring_listing] at hr
  rw [hr, listing_ring]

theorem LaidOut.answer_eq (h : r.LaidOut) (call : RingCall κ ν) :
    r.answer call = r.listing.answer call := by
  have hr := answer_ring (t := r.listing) h.within call
  rwa [h.ring_listing] at hr

theorem LaidOut.listing_run (h : r.LaidOut) (calls : List (RingCall κ ν)) :
    (r.run calls).listing = r.listing.run calls := by
  induction calls generalizing r with
  | nil => rfl
  | cons call calls ih =>
    calc (r.run (call :: calls)).listing
        = ((r.after call).run calls).listing := rfl
      _ = (r.after call).listing.run calls := ih (h.after call)
      _ = r.listing.run (call :: calls) := by
          rw [h.listing_after call]
          rfl

end Ring

end TenantQueue.Queue
