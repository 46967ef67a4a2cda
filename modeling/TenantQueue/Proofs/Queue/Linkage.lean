import TenantQueue.Proofs.Queue.Stored
import Mathlib.Data.List.Iterate
import Mathlib.Data.Set.Function

/-! How a ring is linked. Its operations are told once more with every access to a slot checked and
with a limit on their loops; on a ring that calls can lead to, no check ever fails and no limit is
met. From the first slot the links lead through all slots, in the order of their numbers, to the
head. -/
namespace TenantQueue.Queue
variable {κ ν σ : Type}

theorem Position.within_final (n : Nat) : (final n).Within n := by
  cases n with
  | zero => trivial
  | succ n => exact Nat.lt_succ_self n

namespace Ring

namespace Checked

def next (r : Ring κ ν) : Position → Option Position
  | .head => some r.first
  | .slot i => r.slots[i]?.map Slot.next

def store (r : Ring κ ν) (i : Nat) (v : ν) : Option (Ring κ ν) :=
  if i < r.slots.length then some (r.setValue i v) else none

def advance (r : Ring κ ν) : Option (Option ν × Ring κ ν) := do
  let after ← next r r.cursor
  let start := if after = .head then .head else r.cursor
  let cursor ← next r start
  match cursor with
  | .head => some (none, { r with cursor })
  | .slot i => r.slots[i]?.map fun slot => (some slot.value, { r with cursor })

def rangeFrom (r : Ring κ ν) (visit : σ → ν → Bool × σ) : Nat → Position → σ → Option σ
  | _, .head, s => some s
  | 0, .slot _, _ => none
  | limit + 1, .slot i, s => do
    let slot ← r.slots[i]?
    let (more, s) := visit s slot.value
    if more then rangeFrom r visit limit (← next r (.slot i)) s else some s

def rangeNextFrom (visit : Visitor σ ν) (start : Position) :
    Nat → Position → Ring κ ν → σ → Option (Ring κ ν × σ)
  | 0, _, _, _ => none
  | limit + 1, pos, r, s =>
    if pos = start then
      match pos with
      | .head => some (r, s)
      | .slot i => do
        let slot ← r.slots[i]?
        let (_, v, s) := visit s slot.value
        return (← store r i v, s)
    else
      match pos with
      | .head => do rangeNextFrom visit start limit (← next r pos) r s
      | .slot i => do
        let slot ← r.slots[i]?
        let (more, v, s) := visit s slot.value
        let r ← store r i v
        if more then rangeNextFrom visit start limit (← next r pos) r s
        else some ({ r with cursor := pos }, s)

def rangeNext (r : Ring κ ν) (visit : Visitor σ ν) (limit : Nat) (s : σ) : Option (Ring κ ν × σ) := do
  rangeNextFrom visit r.cursor limit (← next r r.cursor) r s

section Keyed
variable [DecidableEq κ]

def get (r : Ring κ ν) (key : κ) : Option (Option ν) :=
  match r.index.lookup key with
  | some i => r.slots[i]?.map fun slot => some slot.value
  | none => some none

def add (r : Ring κ ν) (key : κ) (v : ν) : Option (Bool × Ring κ ν) :=
  if (r.index.lookup key).isSome then some (false, r)
  else match r.last with
    | .head => some (true, r.append key v)
    | .slot p => if p < r.slots.length then some (true, r.append key v) else none

def set (r : Ring κ ν) (key : κ) (v : ν) : Option (Option ν × Ring κ ν) :=
  match r.index.lookup key with
  | some i => do
    let slot ← r.slots[i]?
    return (some slot.value, ← store r i v)
  | none => some (none, r)

def getOrInsert (r : Ring κ ν) (key : κ) (make : σ → ν × σ) (s : σ) :
    Option (((Option ν × Bool) × σ) × Ring κ ν) :=
  match r.index.lookup key with
  | some i => r.slots[i]?.map fun slot => (((some slot.value, true), s), r)
  | none => do
    let (_, r') ← add r key (make s).1
    let slot ← r'.slots[r.slots.length]?
    return (((some slot.value, false), (make s).2), r')

/-- What a call gives back and the ring that it leaves. A range may take as many steps as the limit
says, a scan one more. -/
def perform (limit : Nat) (r : Ring κ ν) : (call : RingCall κ ν) → Option (call.Answer × Ring κ ν)
  | .add key v => add r key v
  | .get key => (get r key).map (·, r)
  | .set key v => set r key v
  | .getOrInsert key make s => getOrInsert r key make s
  | .advance => advance r
  | .range visit s => (rangeFrom r visit limit r.first s).map (·, r)
  | .rangeNext visit s => (rangeNext r visit (limit + 1) s).map fun (r', s') => (s', r')

end Keyed

theorem next_eq {r : Ring κ ν} {p : Position} (h : p.Within r.slots.length) :
    next r p = some (r.next p) := by
  cases p with
  | head => rfl
  | slot i => simp [next, Ring.next, List.getElem?_eq_getElem (show i < r.slots.length from h)]

theorem store_eq {r : Ring κ ν} {i : Nat} (h : i < r.slots.length) (v : ν) :
    store r i v = some (r.setValue i v) := if_pos h

theorem length_setValue (r : Ring κ ν) (i : Nat) (v : ν) :
    (r.setValue i v).slots.length = r.slots.length := List.length_modify ..

/-- A scan reads a slot before it follows the slot's link. -/
theorem rangeNextFrom_eq (visit : Visitor σ ν) (start : Position) (limit : Nat) (pos : Position)
    (r : Ring κ ν) (s : σ) :
    rangeNextFrom visit start limit pos r s = Ring.rangeNextFrom visit start limit pos r s := by
  induction limit generalizing pos r s with
  | zero => rfl
  | succ limit ih =>
    rw [rangeNextFrom.eq_def, Ring.rangeNextFrom.eq_def]
    dsimp only
    cases pos with
    | head =>
      by_cases hstart : Position.head = start
      · rw [if_pos hstart, if_pos hstart]
      · rw [if_neg hstart, if_neg hstart]
        exact ih r.first r s
    | slot i =>
      cases hi : r.slots[i]? with
      | none => simp [valueAt?, hi]
      | some slot =>
        obtain ⟨hlt, -⟩ := List.getElem?_eq_some_iff.1 hi
        have hvalue : r.valueAt? (.slot i) = some slot.value := by rw [valueAt?, hi, Option.map_some]
        have hnext (v : ν) :
            next (r.setValue i v) (.slot i) = some ((r.setValue i v).next (.slot i)) :=
          next_eq ((length_setValue r i v).symm ▸ hlt)
        by_cases hstart : Position.slot i = start
        · subst hstart
          simp [hi, hvalue, store_eq hlt]
        · simp [hstart, hi, hvalue, store_eq hlt, hnext, ih]

end Checked

section Links
variable {r : Ring κ ν}

theorem LaidOut.length_slots (h : r.LaidOut) : r.slots.length = r.entries.length := by
  conv_lhs => rw [h.eq_ofEntries]
  exact length_slots_ofEntries r.entries r.cursor

theorem LaidOut.within_slots (h : r.LaidOut) : r.cursor.Within r.slots.length :=
  h.length_slots ▸ h.within

theorem LaidOut.first_eq (h : r.LaidOut) : r.first = .ofIndex r.slots.length 0 := by
  rw [h.length_slots]
  conv_lhs => rw [h.eq_ofEntries]
  rfl

theorem LaidOut.last_eq (h : r.LaidOut) : r.last = .final r.slots.length := by
  rw [h.length_slots]
  conv_lhs => rw [h.eq_ofEntries]
  rfl

/-- Every slot is linked to the next one, the last to the head. -/
theorem LaidOut.getElem?_slots (h : r.LaidOut) (i : Nat) :
    r.slots[i]? = r.entries[i]?.map fun e => ⟨e.2, .ofIndex r.slots.length (i + 1)⟩ := by
  rw [h.length_slots]
  conv_lhs => rw [h.eq_ofEntries]
  simp [ofEntries]

theorem LaidOut.next_slot (h : r.LaidOut) {i : Nat} (hi : i < r.slots.length) :
    r.next (.slot i) = .ofIndex r.slots.length (i + 1) := by
  have hentry : i < r.entries.length := h.length_slots ▸ hi
  rw [next, h.getElem?_slots, List.getElem?_eq_getElem hentry]
  rfl

theorem LaidOut.within_next (h : r.LaidOut) {p : Position} (hp : p.Within r.slots.length) :
    (r.next p).Within r.slots.length := by
  cases p with
  | head => exact (h.first_eq ▸ Position.within_ofIndex r.slots.length 0 :)
  | slot i => exact h.next_slot hp ▸ Position.within_ofIndex r.slots.length (i + 1)

/-- Following the links from the first slot, the `k`th step leads to slot `k`, and the step after
the last to the head. -/
theorem LaidOut.iterate_next (h : r.LaidOut) {k : Nat} (hk : k ≤ r.slots.length) :
    r.next^[k] r.first = .ofIndex r.slots.length k := by
  induction k with
  | zero => exact h.first_eq
  | succ k ih =>
    have hslot : Position.ofIndex r.slots.length k = .slot k := if_pos hk
    rw [Function.iterate_succ_apply', ih (Nat.le_of_succ_le hk), hslot, h.next_slot hk]

theorem LaidOut.iterate_links (h : r.LaidOut) :
    List.iterate r.next r.first r.slots.length = (List.range r.slots.length).map .slot := by
  apply List.ext_getElem
  · simp
  · intro i hi hi'
    rw [List.length_iterate] at hi
    rw [List.getElem_iterate, h.iterate_next (Nat.le_of_lt hi), Position.ofIndex, if_pos hi]
    simp

theorem LaidOut.index_eq (h : r.LaidOut) : r.index = r.listing.keys.zipIdx := by
  conv_lhs => rw [h.eq_ofEntries]
  simp [ofEntries, listing, Listing.keys, List.mapIdx_eq_zipIdx_map, List.zipIdx_map]

/-- A range that starts at slot `i` sees the values from there on, and reaches the head in as many
steps as slots are left. -/
theorem LaidOut.rangeFrom_checked (h : r.LaidOut) (visit : σ → ν → Bool × σ) {k i : Nat}
    (hk : i + k = r.slots.length) (s : σ) :
    Checked.rangeFrom r visit k (.ofIndex r.slots.length i) s =
      some (tour visit ((r.entries.drop i).map Prod.snd) s) := by
  have hlen := h.length_slots
  induction k generalizing i s with
  | zero =>
    rw [List.drop_eq_nil_of_le (by omega), Position.ofIndex, if_neg (by omega)]
    rfl
  | succ k ih =>
    have hi : i < r.slots.length := by omega
    have hentry : i < r.entries.length := by omega
    have hslot : Position.ofIndex r.slots.length i = .slot i := if_pos hi
    have hnext : Checked.next r (.slot i) = some (.ofIndex r.slots.length (i + 1)) := by
      rw [Checked.next_eq (show Position.Within _ (.slot i) from hi), h.next_slot hi]
    have hread := h.getElem?_slots i
    rw [List.getElem?_eq_getElem hentry, Option.map_some] at hread
    rw [hslot, Checked.rangeFrom, hread, hnext, List.drop_eq_getElem_cons hentry, List.map_cons, tour]
    simp only [Option.bind_eq_bind, Option.bind_some, ih (show i + 1 + k = r.slots.length by omega)]
    split <;> rfl

end Links

section Keyed
variable [DecidableEq κ] {r : Ring κ ν}

/-- The index knows key number `i` by slot `i`, and no other key. -/
theorem LaidOut.lookup_index_iff (h : r.LaidOut) (key : κ) (i : Nat) :
    r.index.lookup key = some i ↔ r.listing.keys[i]? = some key := by
  have hfind : r.index.lookup key = r.entries.findIdx? fun e => key == e.1 := by
    conv_lhs => rw [h.eq_ofEntries]
    exact lookup_index r.entries r.cursor key
  rw [hfind, List.findIdx?_eq_some_iff_getElem]
  constructor
  · rintro ⟨hi, hk, -⟩
    simp [listing, Listing.keys, hi, eq_of_beq hk]
  · intro hk
    obtain ⟨hi, rfl⟩ := List.getElem?_eq_some_iff.1 hk
    have hlt : i < r.entries.length := (List.length_map Prod.fst).symm.trans_gt hi
    refine ⟨hlt, by simp [listing, Listing.keys], fun j hj he => ?_⟩
    have hbound : j < r.listing.keys.length := Nat.lt_trans hj hi
    have hsame : r.listing.keys[i] = r.listing.keys[j] := by
      simpa [listing, Listing.keys] using he
    exact absurd (h.keys_nodup.getElem_inj_iff.1 hsame) (Nat.ne_of_gt hj)

theorem LaidOut.lookup_index_eq_none_iff (h : r.LaidOut) (key : κ) :
    r.index.lookup key = none ↔ key ∉ r.listing.keys := by
  have hkey := r.listing.index_ring_eq_none_iff key
  rwa [h.ring_listing] at hkey

theorem LaidOut.lt_of_lookup (h : r.LaidOut) {key : κ} {i : Nat}
    (hi : r.index.lookup key = some i) : i < r.slots.length := by
  obtain ⟨hlt, -⟩ := List.getElem?_eq_some_iff.1 ((h.lookup_index_iff key i).1 hi)
  rw [h.length_slots]
  exact (List.length_map Prod.fst).symm.trans_gt hlt

/-- The index maps the keys one-to-one onto the numbers of the slots. -/
theorem LaidOut.bijOn_index (h : r.LaidOut) :
    Set.BijOn (fun key => r.index.lookup key) {key | key ∈ r.listing.keys}
      (some '' Set.Iio r.slots.length) := by
  refine ⟨fun key hk => ?_, fun key hk key' hk' he => ?_, ?_⟩
  · obtain ⟨i, hi⟩ := List.mem_iff_getElem?.1 hk
    have hlookup := (h.lookup_index_iff key i).2 hi
    exact ⟨i, h.lt_of_lookup hlookup, hlookup.symm⟩
  · obtain ⟨i, hi⟩ := List.mem_iff_getElem?.1 hk
    have hlookup := (h.lookup_index_iff key i).2 hi
    have hi' := (h.lookup_index_iff key' i).1 (he.symm.trans hlookup)
    exact Option.some.inj (hi.symm.trans hi')
  · rintro - ⟨i, hi, rfl⟩
    have hlt : i < r.listing.keys.length := by
      rw [Listing.keys, List.length_map]
      exact h.length_slots ▸ hi
    exact ⟨r.listing.keys[i], List.getElem_mem hlt,
      (h.lookup_index_iff _ i).2 (List.getElem?_eq_getElem hlt)⟩

theorem LaidOut.getElem?_slots_of_lookup (h : r.LaidOut) {key : κ} {i : Nat}
    (hi : r.index.lookup key = some i) :
    ∃ slot, r.slots[i]? = some slot ∧ r.get? key = some slot.value := by
  have hslot := List.getElem?_eq_getElem (h.lt_of_lookup hi)
  refine ⟨_, hslot, ?_⟩
  rw [get?, hi, Option.bind_some, Ring.valueAt?, hslot, Option.map_some]

theorem LaidOut.get_checked (h : r.LaidOut) (key : κ) : Checked.get r key = some (r.get? key) := by
  unfold Checked.get
  split
  · next i hi =>
    obtain ⟨slot, hslot, hget⟩ := h.getElem?_slots_of_lookup hi
    rw [hslot, hget, Option.map_some]
  · next hn => rw [get?, hn, Option.bind_none]

theorem LaidOut.add_checked (h : r.LaidOut) (key : κ) (v : ν) :
    Checked.add r key v = some (r.add key v) := by
  unfold Checked.add Ring.add
  split
  · rfl
  · cases hp : r.last with
    | head => rfl
    | slot p =>
      have hw := Position.within_final r.slots.length
      rw [← h.last_eq, hp] at hw
      exact if_pos hw

theorem LaidOut.set_checked (h : r.LaidOut) (key : κ) (v : ν) :
    Checked.set r key v = some (r.get? key, r.set key v) := by
  unfold Checked.set Ring.set
  cases hi : r.index.lookup key with
  | none => rw [get?, hi, Option.bind_none]
  | some i =>
    obtain ⟨slot, hslot, hget⟩ := h.getElem?_slots_of_lookup hi
    simp [hslot, hget, Checked.store_eq (h.lt_of_lookup hi)]

theorem LaidOut.getOrInsert_checked (h : r.LaidOut) (key : κ) (make : σ → ν × σ) (s : σ) :
    Checked.getOrInsert r key make s =
      let ((i, existed), r', s') := r.getOrInsert key make s
      some (((r'.valueAt? (.slot i), existed), s'), r') := by
  unfold Checked.getOrInsert
  split
  · next i hi =>
    obtain ⟨slot, hslot, hget⟩ := h.getElem?_slots_of_lookup hi
    obtain ⟨he, hvalue, -⟩ := Listing.getOrInsert_of_lookup hi make s
    simp [he, hslot, hvalue, hget]
  · next hn =>
    have hk := (h.lookup_index_eq_none_iff key).1 hn
    obtain ⟨he, hvalue, -⟩ := h.getOrInsert_of_notMem hk make s
    obtain ⟨slot, hslot, hmade⟩ := Option.map_eq_some_iff.1 hvalue
    have hsize : r.slots.length = r.size := h.length_slots.trans h.size_eq.symm
    simp [h.add_checked, he, hsize, hslot, hvalue, hmade]

omit [DecidableEq κ] in
theorem LaidOut.advance_checked (h : r.LaidOut) : Checked.advance r = some r.advance := by
  have hstart : (if r.next r.cursor = .head then .head else r.cursor).Within r.slots.length := by
    split
    · trivial
    · exact h.within_slots
  have hlands := h.within_next hstart
  simp only [Checked.advance, Ring.advance, Checked.next_eq h.within_slots,
    Checked.next_eq hstart, Option.bind_eq_bind, Option.bind_some]
  cases hc : r.next (if r.next r.cursor = .head then .head else r.cursor) with
  | head => rfl
  | slot i =>
    rw [hc] at hlands
    simp [Ring.valueAt?, List.getElem?_eq_getElem (show i < r.slots.length from hlands)]

omit [DecidableEq κ] in
theorem LaidOut.range_checked (h : r.LaidOut) (visit : σ → ν → Bool × σ) (s : σ) :
    Checked.rangeFrom r visit r.slots.length r.first s = some (r.range visit s) := by
  rw [h.first_eq, h.rangeFrom_checked visit (Nat.zero_add _), h.range_eq, List.drop_zero]

omit [DecidableEq κ] in
theorem LaidOut.rangeNext_checked (h : r.LaidOut) (visit : Visitor σ ν) (s : σ) :
    Checked.rangeNext r visit (r.slots.length + 1) s = some (r.rangeNext visit s) := by
  rw [Checked.rangeNext, Checked.next_eq h.within_slots, Option.bind_eq_bind, Option.bind_some,
    Checked.rangeNextFrom_eq, h.length_slots, ← h.size_eq]
  exact h.rangeNextFrom_eq visit s

theorem LaidOut.perform_checked (h : r.LaidOut) (call : RingCall κ ν) :
    Checked.perform r.slots.length r call = some (r.answer call, r.after call) := by
  cases call with
  | add key v => exact h.add_checked key v
  | get key => exact congrArg (Option.map (·, r)) (h.get_checked key)
  | set key v => exact h.set_checked key v
  | getOrInsert key make s => exact h.getOrInsert_checked key make s
  | advance => exact h.advance_checked
  | range visit s => exact congrArg (Option.map (·, r)) (h.range_checked visit s)
  | rangeNext visit s => exact congrArg (Option.map _) (h.rangeNext_checked visit s)

/-- Whatever was called on a ring: from the first slot the links lead through slots `0` to `n - 1`,
once each and in this order, and then to the head; the last position before the head is slot `n - 1`,
or the head if there is no slot; the index maps the keys that were inserted one-to-one onto the
numbers below `n`; and the cursor is on the head or on a slot. No further call accesses a slot that
does not exist, a range ends after at most `n` steps and a scan after at most `n + 1`. -/
theorem links_sound (calls : List (RingCall κ ν)) :
    let r : Ring κ ν := run calls {}
    let n := r.slots.length
    let inserted := calls.filterMap RingCall.inserts?
    (List.iterate r.next r.first n = (List.range n).map .slot ∧ r.next^[n] r.first = .head) ∧
    r.last = .final n ∧
    (r.index = inserted.eraseDups.zipIdx ∧
      Set.BijOn (fun key => r.index.lookup key) {key | key ∈ inserted} (some '' Set.Iio n) ∧
      ∀ key ∉ inserted, r.index.lookup key = none) ∧
    r.cursor.Within n ∧
    ∀ call : RingCall κ ν, Checked.perform n r call = some (r.answer call, r.after call) := by
  intro r n inserted
  have h : r.LaidOut := laidOut_empty.run calls
  have hkeys : r.listing.keys = inserted.eraseDups := keys_run calls
  have hmem (key : κ) : key ∈ r.listing.keys ↔ key ∈ inserted := by
    rw [hkeys, List.mem_eraseDups]
  refine ⟨⟨h.iterate_links, ?_⟩, h.last_eq, ⟨hkeys ▸ h.index_eq, ?_, fun key hk => ?_⟩,
    h.within_slots, h.perform_checked⟩
  · rw [h.iterate_next (Nat.le_refl n)]
    exact if_neg (Nat.lt_irrefl n)
  · simpa only [hmem] using h.bijOn_index
  · exact (h.lookup_index_eq_none_iff key).2 (mt (hmem key).1 hk)

end Keyed

end Ring

end TenantQueue.Queue
