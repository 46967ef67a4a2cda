import TenantQueue.Proofs.Queue.Listing
import Mathlib.Data.List.Induction

/-! What a ring holds. A key has the value that was stored for it last, and the keys stand in the
order in which they were first inserted. -/
namespace TenantQueue.Queue.Ring
open Listing
variable {κ ν σ : Type} [DecidableEq κ] {r : Ring κ ν}

section Stores

/-- What a call stores, key by key in the order of the stores. A visitor stores what it leaves. -/
def stores (r : Ring κ ν) : RingCall κ ν → List (κ × ν)
  | .add key v => if (r.get? key).isSome then [] else [(key, v)]
  | .set key v => if (r.get? key).isSome then [(key, v)] else []
  | .getOrInsert key make s => if (r.get? key).isSome then [] else [(key, (make s).1)]
  | .rangeNext visit s =>
    (r.calls visit s).filterMap fun v => r.listing.keys[v.slot]?.map (·, visit.left v)
  | _ => []

def stored : List (RingCall κ ν) → Ring κ ν → List (κ × ν)
  | [], _ => []
  | call :: calls, r => r.stores call ++ stored calls (r.after call)

def storeAll (stores es : List (κ × ν)) : List (κ × ν) :=
  stores.foldl (fun es e => assign e.1 e.2 es) es

theorem storeAll_append (first later es : List (κ × ν)) :
    storeAll (first ++ later) es = storeAll later (storeAll first es) :=
  List.foldl_append

/-- The value of a key is the one stored last, or else the one from before. -/
theorem lookup_storeAll (stores es : List (κ × ν)) (key : κ) :
    (storeAll stores es).lookup key = (stores.reverse.lookup key).or (es.lookup key) := by
  induction stores generalizing es with
  | nil => rfl
  | cons e stores ih =>
    rw [storeAll, List.foldl_cons, ← storeAll, ih, lookup_assign, List.reverse_cons,
      List.lookup_append, Option.or_assoc, List.lookup_cons]
    cases key == e.1 <;> rfl

/-- A sweep stores under the key of each slot visited what the visitor leaves there. -/
theorem sweep_eq_storeAll (visit : Visitor σ ν) {order : List Nat} (ho : order.Nodup)
    {es : List (κ × ν)} (hk : (es.map Prod.fst).Nodup) (s : σ) :
    (sweep visit order es s).2.1 =
      storeAll ((visit.visits (fun i => es[i]?.map Prod.snd) order s).filterMap fun v =>
        (es.map Prod.fst)[v.slot]?.map (·, visit.left v)) es := by
  induction order generalizing es s with
  | nil => rfl
  | cons i order ih =>
    rw [List.nodup_cons] at ho
    unfold sweep Visitor.visits
    cases hi : es[i]? with
    | none => exact ih ho.2 hk s
    | some e =>
      have hassign : assign e.1 (visit s e.2).2.1 es = _ := assign_of_getElem? hk hi _
      have hkey : (es.map Prod.fst)[i]? = some e.1 := by rw [List.getElem?_map, hi, Option.map_some]
      simp only [Option.map_some, List.filterMap_cons, hkey]
      by_cases hv : (visit s e.2).1 = true
      · have hk' : ((es.modify i fun e' => (e'.1, (visit s e.2).2.1)).map Prod.fst).Nodup := by
          rwa [keys_modify]
        have hrest := ih ho.2 hk' (visit s e.2).2.2
        rw [visits_modify visit ho.1, keys_modify, ← hassign] at hrest
        simp only [hv, if_true, ← hassign]
        exact hrest
      · simp only [hv, ← hassign]
        rfl

theorem LaidOut.get?_eq_none_iff (h : r.LaidOut) (key : κ) :
    r.get? key = none ↔ key ∉ r.listing.keys := by
  have hkey := r.listing.get?_eq_none_iff key
  rwa [← get?_ring, h.ring_listing] at hkey

theorem LaidOut.isSome_get? (h : r.LaidOut) (key : κ) :
    (r.get? key).isSome = true ↔ key ∈ r.listing.keys := by
  rw [Option.isSome_iff_ne_none, ne_eq, h.get?_eq_none_iff, not_not]

/-- A call changes the entries by what it stores. -/
theorem LaidOut.entries_after (h : r.LaidOut) (call : RingCall κ ν) :
    (r.after call).entries = storeAll (r.stores call) r.entries := by
  have hlisting : (r.after call).entries = (r.listing.after call).entries :=
    congrArg Listing.entries (h.listing_after call)
  have hadd (key : κ) (v : ν) : (r.listing.after (.add key v)).entries =
      storeAll (r.stores (.add key v)) r.entries := by
    simp only [Listing.after, Listing.add, stores, h.isSome_get?]
    split
    · rfl
    · next hk =>
      exact (assign_of_lookup_none r.entries v ((lookup_eq_none_iff r.entries key).2 hk)).symm
  rw [hlisting]
  cases call with
  | add key v => exact hadd key v
  | get key => rfl
  | set key v =>
    simp only [Listing.after, Listing.set, stores, h.isSome_get?]
    split <;> rfl
  | getOrInsert key make s =>
    rw [after_getOrInsert]
    exact hadd key (make s).1
  | advance => rfl
  | range visit s => rfl
  | rangeNext visit s =>
    have hsweep := sweep_eq_storeAll visit (revolution_nodup r.size r.cursor) h.keys_nodup s
    rw [h.calls_eq] at hsweep
    rw [h.size_eq] at hsweep
    exact hsweep

theorem LaidOut.entries_run (h : r.LaidOut) (calls : List (RingCall κ ν)) :
    (r.run calls).entries = storeAll (r.stored calls) r.entries := by
  induction calls generalizing r with
  | nil => rfl
  | cons call calls ih =>
    rw [stored, storeAll_append, ← h.entries_after call]
    exact ih (h.after call)

/-- Only an insertion brings a key in, and only a new one. -/
theorem LaidOut.keys_after (h : r.LaidOut) (call : RingCall κ ν) :
    (r.after call).listing.keys =
      match call.inserts? with
      | some key => if key ∈ r.listing.keys then r.listing.keys else r.listing.keys ++ [key]
      | none => r.listing.keys := by
  have hadd (key : κ) (v : ν) : (r.listing.after (.add key v)).keys =
      if key ∈ r.listing.keys then r.listing.keys else r.listing.keys ++ [key] := by
    simp only [Listing.after, Listing.add]
    split
    · rfl
    · exact List.map_append
  rw [h.listing_after call]
  cases call with
  | add key v => exact hadd key v
  | get key => rfl
  | set key v =>
    simp only [Listing.after, Listing.set, RingCall.inserts?]
    split
    · next hk => exact (keys_assign r.entries key v).trans (if_pos hk)
    · rfl
  | getOrInsert key make s =>
    rw [after_getOrInsert]
    exact hadd key (make s).1
  | advance => rfl
  | range visit s => rfl
  | rangeNext visit s => exact keys_sweep visit _ r.entries s

theorem keys_run (calls : List (RingCall κ ν)) :
    (run calls ({} : Ring κ ν)).listing.keys = (calls.filterMap RingCall.inserts?).eraseDups := by
  induction calls using List.reverseRecOn with
  | nil => rfl
  | append_singleton calls call ih =>
    have h : (run calls ({} : Ring κ ν)).LaidOut := laidOut_empty.run calls
    rw [run, List.foldl_append, List.foldl_cons, List.foldl_nil, ← run, h.keys_after call, ih,
      List.filterMap_append]
    cases hc : call.inserts? with
    | none => simp [hc]
    | some key =>
      simp only [List.filterMap_cons, List.filterMap_nil, hc, List.eraseDups_append,
        List.mem_eraseDups]
      split <;> simp_all [List.removeAll, List.eraseDups_cons]

theorem LaidOut.cursor_after (h : r.LaidOut) {call : RingCall κ ν}
    (hc : call.steps = false) : (r.after call).cursor = r.cursor := by
  have hcursor : (r.after call).cursor = (r.listing.after call).cursor :=
    congrArg Listing.cursor (h.listing_after call)
  have hadd (key : κ) (v : ν) : (r.listing.after (.add key v)).cursor = r.cursor := by
    simp only [Listing.after, Listing.add]
    split <;> rfl
  rw [hcursor]
  cases call with
  | add key v => exact hadd key v
  | get key => rfl
  | set key v =>
    simp only [Listing.after, Listing.set]
    split <;> rfl
  | getOrInsert key make s =>
    rw [after_getOrInsert]
    exact hadd key (make s).1
  | advance => cases hc
  | range visit s => rfl
  | rangeNext visit s => cases hc

end Stores

section Range

def passing (visit : σ → ν → Bool × σ) (s : σ) (vs : List ν) : σ :=
  vs.foldl (fun s v => (visit s v).2) s

def noting (visit : σ → ν → Bool × σ) : σ × List ν → ν → Bool × (σ × List ν) := fun s v =>
  ((visit s.1 v).1, (visit s.1 v).2, s.2 ++ [v])

/-- What a visitor sees of a list: all, or up to the first value at which it has enough. -/
structure Sees (visit : σ → ν → Bool × σ) (s : σ) (values seen : List ν) : Prop where
  in_order : seen <+: values
  goes_on : ∀ front v back, seen = front ++ v :: back → back ≠ [] →
    (visit (passing visit s front) v).1 = true
  stops : seen = values ∨ ∃ front v, seen = front ++ [v] ∧
    (visit (passing visit s front) v).1 = false

variable {visit : σ → ν → Bool × σ} {s : σ}

theorem sees_nil : Sees visit s [] [] where
  in_order := List.prefix_refl []
  goes_on front v back h _ := by simp at h
  stops := .inl rfl

theorem sees_stop {v : ν} (hv : (visit s v).1 = false) (values : List ν) :
    Sees visit s (v :: values) [v] where
  in_order := by simp
  goes_on front w back h hb := by
    have hlen := congrArg List.length h
    have hback := List.length_pos_of_ne_nil hb
    simp only [List.length_append, List.length_cons, List.length_nil] at hlen
    omega
  stops := .inr ⟨[], v, rfl, hv⟩

theorem Sees.cons {v : ν} {values seen : List ν} (hv : (visit s v).1 = true)
    (h : Sees visit (visit s v).2 values seen) : Sees visit s (v :: values) (v :: seen) where
  in_order := (List.prefix_cons_inj v).2 h.in_order
  goes_on front w back he hb := by
    cases front with
    | nil =>
      cases he
      exact hv
    | cons u front =>
      cases he
      exact h.goes_on front w back rfl hb
  stops := by
    rcases h.stops with rfl | ⟨front, w, rfl, hw⟩
    · exact .inl rfl
    · exact .inr ⟨v :: front, w, rfl, hw⟩

theorem tour_sees (visit : σ → ν → Bool × σ) (values : List ν) (s : σ) (noted : List ν) :
    ∃ seen, Sees visit s values seen ∧ tour visit values s = passing visit s seen ∧
      tour (noting visit) values (s, noted) = (passing visit s seen, noted ++ seen) := by
  induction values generalizing s noted with
  | nil => exact ⟨[], sees_nil, rfl, by simp [tour, passing]⟩
  | cons v values ih =>
    by_cases hv : (visit s v).1 = true
    · obtain ⟨seen, hsees, hstate, hnoted⟩ := ih (visit s v).2 (noted ++ [v])
      refine ⟨v :: seen, hsees.cons hv, ?_, ?_⟩
      · rw [tour, if_pos hv, hstate]
        rfl
      · rw [tour, if_pos (show (noting visit (s, noted) v).1 = true from hv)]
        rw [List.append_assoc] at hnoted
        exact hnoted
    · have hn : (visit s v).1 = false := Bool.not_eq_true _ ▸ hv
      refine ⟨[v], sees_stop hn values, ?_, ?_⟩
      · rw [tour, if_neg hv]
        rfl
      · rw [tour, if_neg (show ¬ (noting visit (s, noted) v).1 = true from hv)]
        rfl

end Range

section Users

theorem LaidOut.add_ring_listing (h : r.LaidOut) (key : κ) (v : ν) :
    r.add key v = ((r.listing.add key v).1, (r.listing.add key v).2.ring) := by
  have hadd := r.listing.add_ring key v
  rwa [h.ring_listing] at hadd

/-- A key that is there keeps its value. -/
theorem LaidOut.add_of_mem (h : r.LaidOut) {key : κ} (hk : key ∈ r.listing.keys) (v : ν) :
    r.add key v = (false, r) := by
  rw [h.add_ring_listing, Listing.add, if_pos hk, h.ring_listing]

/-- A key that is missing comes last. -/
theorem LaidOut.add_of_notMem (h : r.LaidOut) {key : κ} (hk : key ∉ r.listing.keys) (v : ν) :
    r.add key v = (true, ofEntries (r.entries ++ [(key, v)]) r.cursor) := by
  rw [h.add_ring_listing, Listing.add, if_neg hk]
  rfl

/-- The slot of a key that is there is handed out, and no value is made. -/
theorem LaidOut.getOrInsert_of_mem (h : r.LaidOut) {key : κ} (hk : key ∈ r.listing.keys)
    (make : σ → ν × σ) (s : σ) :
    ∃ i, r.getOrInsert key make s = ((i, true), r, s) ∧ r.valueAt? (.slot i) = r.get? key ∧
      ∀ w, r.setValue i w = r.set key w := by
  have hsome : r.index.lookup key ≠ none := by
    rw [← h.ring_listing]
    exact fun hn => (r.listing.index_ring_eq_none_iff key).1 hn hk
  obtain ⟨i, hi⟩ := Option.ne_none_iff_exists'.1 hsome
  exact ⟨i, getOrInsert_of_lookup hi make s⟩

/-- A key that is missing is added with a value made once, and the new slot is handed out. -/
theorem LaidOut.getOrInsert_of_notMem (h : r.LaidOut) {key : κ} (hk : key ∉ r.listing.keys)
    (make : σ → ν × σ) (s : σ) :
    let r' := (r.add key (make s).1).2
    r.getOrInsert key make s = ((r.size, false), r', (make s).2) ∧
      r'.valueAt? (.slot r.size) = some (make s).1 ∧
      ∀ w, r'.setValue r.size w = r'.set key w := by
  intro r'
  have hsize : r.listing.size = r.size := h.size_eq.symm
  have hr' : r' = (r.listing.add key (make s).1).2.ring :=
    congrArg Prod.snd (h.add_ring_listing key (make s).1)
  have hget := getOrInsert_ring_of_missing hk make s
  rw [h.ring_listing, ← hr', hsize] at hget
  have hi := index_add hk (make s).1
  rw [← hr', hsize] at hi
  obtain ⟨-, hvalue, hset⟩ := getOrInsert_of_lookup hi make s
  refine ⟨hget, ?_, hset⟩
  rw [hvalue, hr', get?_ring, get?_add hk]

theorem LaidOut.get?_eq (h : r.LaidOut) (key : κ) : r.get? key = r.entries.lookup key := by
  have hget := r.listing.get?_ring key
  rwa [h.ring_listing] at hget

theorem LaidOut.get?_of_mem (h : r.LaidOut) {e : κ × ν} (he : e ∈ r.entries) :
    r.get? e.1 = some e.2 := by
  obtain ⟨front, back, hsplit⟩ := List.append_of_mem he
  have hk := h.keys_nodup
  rw [hsplit, List.map_append, List.map_cons, List.nodup_append] at hk
  rw [h.get?_eq, hsplit, List.lookup_append, List.lookup_cons, beq_self_eq_true]
  have hfront : front.lookup e.1 = none := (lookup_eq_none_iff front e.1).2 fun hm =>
    hk.2.2 e.1 hm e.1 List.mem_cons_self rfl
  rw [hfront, Option.none_or]

omit [DecidableEq κ] in
theorem LaidOut.range_eq (h : r.LaidOut) (visit : σ → ν → Bool × σ) (s : σ) :
    r.range visit s = tour visit (r.entries.map Prod.snd) s := by
  conv_lhs => rw [h.eq_ofEntries]
  exact range_ofEntries r.entries r.cursor visit s

/-- A ring serves its users as a list of keys and values with a cursor does. After any calls it
gives every further call the answer of that list. A key has the value stored last, and none only
if it was never inserted; the keys stand in the order in which they were first inserted. A key that
is there is neither added again nor made a value for, a new one comes last and its slot is handed
out. A visitor of a range sees the values in that order up to the first at which it has enough.
Only `advance` and scans move the cursor. -/
theorem ring_serves_as_list (calls : List (RingCall κ ν)) :
    let r : Ring κ ν := run calls {}
    let inserted := calls.filterMap RingCall.inserts?
    (r.listing = Listing.run calls {} ∧
      ∀ call, r.answer call = (Listing.run calls {}).answer call) ∧
    (∀ key, r.get? key = (stored calls {}).reverse.lookup key ∧
      (r.get? key = none ↔ key ∉ inserted)) ∧
    (r.entries.map Prod.fst = inserted.eraseDups ∧ (∀ e ∈ r.entries, r.get? e.1 = some e.2) ∧
      r.size = inserted.eraseDups.length) ∧
    (∀ key v, (key ∈ inserted → r.add key v = (false, r)) ∧
      (key ∉ inserted → r.add key v = (true, ofEntries (r.entries ++ [(key, v)]) r.cursor))) ∧
    (∀ {σ : Type} key (make : σ → ν × σ) s,
      (key ∈ inserted → ∃ i, r.getOrInsert key make s = ((i, true), r, s) ∧
        r.valueAt? (.slot i) = r.get? key ∧ ∀ w, r.setValue i w = r.set key w) ∧
      (key ∉ inserted →
        let r' := (r.add key (make s).1).2
        r.getOrInsert key make s = ((r.size, false), r', (make s).2) ∧
          r'.valueAt? (.slot r.size) = some (make s).1 ∧
          ∀ w, r'.setValue r.size w = r'.set key w)) ∧
    (∀ {σ : Type} (visit : σ → ν → Bool × σ) s, ∃ seen,
      Sees visit s (r.entries.map Prod.snd) seen ∧ r.range visit s = passing visit s seen ∧
        r.range (noting visit) (s, []) = (passing visit s seen, seen)) ∧
    ∀ call : RingCall κ ν, call.steps = false → (r.after call).cursor = r.cursor := by
  intro r inserted
  have h : r.LaidOut := laidOut_empty.run calls
  have hlisting : r.listing = Listing.run calls {} := laidOut_empty.listing_run calls
  have hkeys : r.listing.keys = inserted.eraseDups := keys_run calls
  have hmem (key : κ) : key ∈ r.listing.keys ↔ key ∈ inserted := by
    rw [hkeys, List.mem_eraseDups]
  have hget (key : κ) : r.get? key = none ↔ key ∉ inserted := by
    rw [← hmem, h.get?_eq_none_iff]
  refine ⟨⟨hlisting, fun call => ?_⟩, fun key => ⟨?_, hget key⟩, ⟨hkeys, fun e => h.get?_of_mem, ?_⟩,
    fun key v => ⟨fun hk => ?_, fun hk => ?_⟩, fun key make s => ⟨fun hk => ?_, fun hk => ?_⟩,
    fun visit s => ?_, fun call => h.cursor_after⟩
  · rw [h.answer_eq, hlisting]
  · rw [h.get?_eq, show r.entries = _ from laidOut_empty.entries_run calls, lookup_storeAll]
    exact Option.or_none
  · rw [h.size_eq, ← hkeys]
    exact (List.length_map Prod.fst).symm
  · exact h.add_of_mem ((hmem key).2 hk) v
  · exact h.add_of_notMem (mt (hmem key).1 hk) v
  · exact h.getOrInsert_of_mem ((hmem key).2 hk) make s
  · exact h.getOrInsert_of_notMem (mt (hmem key).1 hk) make s
  · obtain ⟨seen, hsees, hstate, hnoted⟩ := tour_sees visit (r.entries.map Prod.snd) s []
    rw [h.range_eq, h.range_eq]
    exact ⟨seen, hsees, hstate, hnoted⟩

end Users

end TenantQueue.Queue.Ring
