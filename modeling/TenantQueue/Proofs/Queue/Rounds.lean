import TenantQueue.Proofs.Queue.Fairness
import Mathlib.Data.Int.ModEq
import Mathlib.Data.List.Sort
import Mathlib.Data.Prod.Lex
import Mathlib.Tactic.Ring

/-! The order in which a queue is emptied. The tenants are served in rounds: first the item in front
of each tenant's queue, from the tenant after the cursor on, then the second of each, and so on.
Tenants run out at different times, and each time the next search starts from another slot, but the
order is the same as if all of it had been sorted beforehand. -/
namespace TenantQueue.Queue
variable {α : Type}

namespace Position

def number : Position → ℤ
  | head => -1
  | slot i => i

def turn (c : Position) (n i : Nat) : ℤ := ((i : ℤ) - c.number - 1) % n

variable {c : Position} {n i j : Nat}

theorem turn_nonneg (c : Position) (hi : i < n) (j : Nat) : 0 ≤ c.turn n j :=
  Int.emod_nonneg _ (by omega)

theorem turn_lt (c : Position) (hi : i < n) (j : Nat) : c.turn n j < n :=
  Int.emod_lt_of_pos _ (by omega)

theorem turn_head (hi : i < n) : head.turn n i = i := by
  rw [turn, number, sub_neg_eq_add, add_sub_cancel_right]
  exact Int.emod_eq_of_lt (by omega) (by omega)

theorem turn_slot {c : Nat} (hc : c < n) (hi : i < n) :
    (slot c).turn n i = if i ≤ c then (i : ℤ) - c - 1 + n else (i : ℤ) - c - 1 := by
  rw [turn, number]
  split
  · rw [← Int.add_emod_right]
    exact Int.emod_eq_of_lt (by omega) (by omega)
  · exact Int.emod_eq_of_lt (by omega) (by omega)

theorem precedes_iff_turn_lt (hc : c.Within n) (hi : i < n) (hj : j < n) :
    c.Precedes i j ↔ c.turn n i < c.turn n j := by
  cases c with
  | head =>
    rw [turn_head hi, turn_head hj, Int.ofNat_lt]
    rfl
  | slot c =>
    rw [turn_slot hc hi, turn_slot hc hj, Precedes]
    split <;> split <;> omega

/-- After slot `i` was served, a slot that came later has that much less before it. -/
theorem turn_of_served (hi : i < n) (h : c.turn n i < c.turn n j) :
    (slot i).turn n j = c.turn n j - c.turn n i - 1 := by
  have hmod : c.turn n j - c.turn n i - 1 ≡ (j : ℤ) - i - 1 [ZMOD n] := by
    refine (((Int.mod_modEq _ _).sub (Int.mod_modEq _ _)).sub_right 1).trans ?_
    rw [sub_sub_sub_cancel_right, sub_sub_sub_cancel_right]
  have hnonneg := turn_nonneg c hi i
  have hlt := turn_lt c hi j
  calc (slot i).turn n j = (c.turn n j - c.turn n i - 1) % n := hmod.symm
    _ = c.turn n j - c.turn n i - 1 := Int.emod_eq_of_lt (by omega) (by omega)

/-- The slot that was served comes last from then on. -/
theorem turn_self (hi : i < n) : (slot i).turn n i = n - 1 := by
  rw [turn_slot hi hi, if_pos (Nat.le_refl i)]
  omega

end Position

structure Place (α : Type) where
  slot : Nat
  index : Nat
  item : α
  deriving DecidableEq, Repr

namespace Place
variable {c : Position} {n i : Nat} {p p' : Place α}

def rank (c : Position) (n : Nat) (p : Place α) : ℕ ×ₗ ℤ := toLex (p.index, c.turn n p.slot)

/-- How many items would be handed out before this one if no tenant ran out. -/
def due (c : Position) (n : Nat) (p : Place α) : ℤ := p.index * n + c.turn n p.slot

theorem due_nonneg (hi : i < n) (p : Place α) : 0 ≤ p.due c n :=
  Int.add_nonneg (Int.mul_nonneg (by omega) (by omega)) (Position.turn_nonneg c hi p.slot)

theorem rank_lt_of_due (hi : i < n) (h : p.due c n < p'.due c n) : p.rank c n < p'.rank c n := by
  have hp := Position.turn_nonneg c hi p.slot
  have hp' := Position.turn_lt c hi p'.slot
  rw [rank, rank, Prod.Lex.toLex_lt_toLex]
  unfold due at h
  rcases Nat.lt_trichotomy p.index p'.index with hlt | heq | hgt
  · exact .inl hlt
  · exact .inr ⟨heq, by simpa [heq] using h⟩
  · have hround : (p'.index + 1 : ℤ) * n ≤ p.index * n :=
      Int.mul_le_mul_of_nonneg_right (by omega) (by omega)
    rw [Int.add_mul, Int.one_mul] at hround
    omega

def behind (i : Nat) (p : Place α) : Place α :=
  if p.slot = i then { p with index := p.index + 1 } else p

theorem item_behind (i : Nat) (p : Place α) : (p.behind i).item = p.item := by
  unfold behind
  split <;> rfl

/-- Serving a slot brings every item that waits equally nearer. -/
theorem due_behind (hi : i < n) (h : p.slot ≠ i → c.turn n i < c.turn n p.slot) :
    (p.behind i).due c n = p.due (.slot i) n + (c.turn n i + 1) := by
  unfold behind due
  split
  · next hp =>
    rw [hp, Position.turn_self hi]
    push_cast
    ring
  · next hp =>
    rw [Position.turn_of_served hi (h hp)]
    ring

end Place

def row (slot : Nat) (items : DedupQueue α) : List (Place α) :=
  items.waiting.zipIdx.map fun entry => ⟨slot, entry.2, entry.1⟩

def places (parts : List (String × DedupQueue α)) : List (Place α) :=
  parts.zipIdx.flatMap fun part => row part.2 part.1.2

theorem mem_row {slot : Nat} {items : DedupQueue α} {p : Place α} :
    p ∈ row slot items ↔ p.slot = slot ∧ items.waiting[p.index]? = some p.item := by
  simp only [row, List.mem_map, List.mem_zipIdx_iff_getElem?]
  constructor
  · rintro ⟨entry, he, rfl⟩
    exact ⟨rfl, he⟩
  · rintro ⟨rfl, hp⟩
    exact ⟨(p.item, p.index), hp, rfl⟩

theorem mem_places {parts : List (String × DedupQueue α)} {p : Place α} :
    p ∈ places parts ↔
      ∃ part, parts[p.slot]? = some part ∧ part.2.waiting[p.index]? = some p.item := by
  simp only [places, List.mem_flatMap, mem_row, List.mem_zipIdx_iff_getElem?]
  constructor
  · rintro ⟨part, hpart, hslot, hp⟩
    exact ⟨part.1, hslot ▸ hpart, hp⟩
  · rintro ⟨part, hpart, hp⟩
    exact ⟨(part, p.slot), hpart, rfl, hp⟩

theorem item_row (slot : Nat) (items : DedupQueue α) :
    (row slot items).map Place.item = items.waiting := by
  simp [row, Function.comp_def]

theorem item_places (parts : List (String × DedupQueue α)) :
    (places parts).map Place.item = parts.flatMap fun part => part.2.waiting := by
  rw [places, List.map_flatMap]
  simp only [item_row]
  rw [← List.flatMap_map Prod.fst fun part : String × DedupQueue α => part.2.waiting]
  simp

theorem behind_row_self (i : Nat) {items rest : DedupQueue α} {x : α}
    (h : items.waiting = x :: rest.waiting) :
    row i items = ⟨i, 0, x⟩ :: (row i rest).map (Place.behind i) := by
  simp only [row, h, List.zipIdx_cons, List.map_cons, List.map_map, List.zipIdx_succ]
  simp [Function.comp_def, Place.behind]

/-- Other rows stay as they are. -/
theorem behind_rows {i : Nat} {parts : List ((String × DedupQueue α) × Nat)}
    (h : ∀ part ∈ parts, part.2 ≠ i) :
    (parts.flatMap fun part => row part.2 part.1.2).map (Place.behind i) =
      parts.flatMap fun part => row part.2 part.1.2 := by
  conv_rhs => rw [← List.map_id (parts.flatMap _)]
  refine List.map_congr_left fun p hp => if_neg ?_
  obtain ⟨part, hpart, hp⟩ := List.mem_flatMap.1 hp
  rw [(mem_row.1 hp).1]
  exact h part hpart

/-- What a serving does to the places: the first of a row goes, and the rest of the row moves up. -/
theorem places_of_served {parts : List (String × DedupQueue α)} {i : Nat} {t : String}
    {items rest : DedupQueue α} {x : α} (hi : parts[i]? = some (t, items))
    (h : items.waiting = x :: rest.waiting) :
    (places parts).Perm
      (⟨i, 0, x⟩ :: (places (parts.modify i fun part => (part.1, rest))).map (Place.behind i)) := by
  obtain ⟨hl, he⟩ := List.getElem?_eq_some_iff.1 hi
  have hparts : parts = parts.take i ++ (t, items) :: parts.drop (i + 1) := by
    rw [← he, List.getElem_cons_drop, List.take_append_drop]
  have hleft : parts.modify i (fun part => (part.1, rest)) =
      parts.take i ++ (t, rest) :: parts.drop (i + 1) := by
    rw [List.modify_eq_take_cons_drop hl, he]
  have hlen : (parts.take i).length = i := List.length_take_of_le hl.le
  have hfront : ∀ part ∈ (parts.take i).zipIdx, part.2 ≠ i := fun part hp => by
    have := (List.mem_zipIdx hp).2.1
    omega
  have hback : ∀ part ∈ (parts.drop (i + 1)).zipIdx (i + 1), part.2 ≠ i := fun part hp => by
    have := (List.mem_zipIdx hp).1
    omega
  rw [hleft]
  conv_lhs => rw [hparts]
  simp only [places, List.zipIdx_append, List.zipIdx_cons, List.flatMap_append, List.flatMap_cons,
    List.map_append, hlen, Nat.zero_add, behind_rows hfront, behind_rows hback, behind_row_self i h]
  exact List.perm_middle

namespace Rota
variable {home : α → Option String} {r r' : Rota α} {x : α} {i : Nat} {t : String}
  {rest : DedupQueue α}

/-- When the items that wait are due. -/
def due (r : Rota α) (p : Place α) : ℤ := p.due r.resting r.tenants.length

def rank (r : Rota α) (p : Place α) : ℕ ×ₗ ℤ := p.rank r.resting r.tenants.length

structure InTurn (r : Rota α) (ps : List (Place α)) : Prop where
  perm : ps.Perm (places r.tenants)
  pairwise : ps.Pairwise fun p p' => r.due p < r.due p'

variable [DecidableEq α]

theorem Serving.tenants_eq (h : r.Sound home) (hs : r.Serving x r' i t rest) :
    r'.tenants = r.tenants.modify i fun e => (e.1, rest) := by
  rw [hs.left, withPart, modify_eq_assign h hs.tenant]

/-- Serving a tenant brings everything that waits after it equally nearer. -/
theorem Serving.due_behind (h : r.Sound home) (hs : r.Serving x r' i t rest) {p : Place α}
    (hp : p ∈ places r'.tenants) :
    r.due (p.behind i) = r'.due p + (r.resting.turn r.tenants.length i + 1) := by
  obtain ⟨part, hpart, hitem⟩ := mem_places.1 hp
  have hi : i < r.tenants.length := (List.getElem?_eq_some_iff.1 hs.tenant).1
  rw [hs.tenants_eq h] at hpart
  rw [due, due, hs.resting_eq, hs.tenants_eq h, List.length_modify]
  refine Place.due_behind hi fun hne => ?_
  rw [List.getElem?_modify_ne _ _ hne.symm] at hpart
  have hj : p.slot < r.tenants.length := (List.getElem?_eq_some_iff.1 hpart).1
  have hw : part.2.waiting ≠ [] := List.ne_nil_of_mem (List.mem_of_getElem? hitem)
  exact (Position.precedes_iff_turn_lt h.within hi hj).1 (hs.precedes_slot h hpart hw hne)

/-- The item that is served was due first, and the order of the others does not change. -/
theorem Serving.inTurn (h : r.Sound home) (hs : r.Serving x r' i t rest) {ps : List (Place α)}
    (hps : r'.InTurn ps) : r.InTurn (⟨i, 0, x⟩ :: ps.map (Place.behind i)) := by
  have hi : i < r.tenants.length := (List.getElem?_eq_some_iff.1 hs.tenant).1
  have hdue {p : Place α} (hp : p ∈ ps) :
      r.due (p.behind i) = r'.due p + (r.resting.turn r.tenants.length i + 1) :=
    hs.due_behind h (hps.perm.mem_iff.1 hp)
  constructor
  · refine .trans (.cons _ (hps.perm.map _)) ?_
    rw [hs.tenants_eq h]
    exact (places_of_served hs.tenant (DedupQueue.get?_eq_some hs.taken).1).symm
  · refine List.pairwise_cons.2 ⟨fun p hp => ?_, List.pairwise_map.2 ?_⟩
    · obtain ⟨p, hp', rfl⟩ := List.mem_map.1 hp
      have hi' : i < r'.tenants.length := by rwa [hs.tenants_eq h, List.length_modify]
      have hnonneg : 0 ≤ r'.due p := Place.due_nonneg hi' p
      have hfirst : r.due ⟨i, 0, x⟩ = r.resting.turn r.tenants.length i := by simp [due, Place.due]
      rw [hdue hp', hfirst]
      omega
    · refine hps.pairwise.imp_of_mem fun hp hp' hlt => ?_
      rw [hdue hp, hdue hp']
      omega

omit [DecidableEq α] in
theorem InTurn.pairwise_rank {ps : List (Place α)} (h : r.InTurn ps) :
    ps.Pairwise fun p p' => r.rank p < r.rank p' := by
  refine h.pairwise.imp_of_mem fun hp _ hlt => ?_
  obtain ⟨part, hpart, -⟩ := mem_places.1 (h.perm.mem_iff.1 hp)
  exact Place.rank_lt_of_due (List.getElem?_eq_some_iff.1 hpart).1 hlt

omit [DecidableEq α] in
/-- The places in turn are the places sorted by rank. -/
theorem InTurn.eq_insertionSort {ps : List (Place α)} (h : r.InTurn ps) :
    ps = (places r.tenants).insertionSort fun p p' => r.rank p ≤ r.rank p' := by
  let le (p p' : Place α) : Prop := r.rank p ≤ r.rank p'
  have : Std.Total le := ⟨fun _ _ => le_total _ _⟩
  have : IsTrans _ le := ⟨fun _ _ _ => le_trans⟩
  have hsort := List.perm_insertionSort le (places r.tenants)
  have hsorted := List.pairwise_insertionSort le (places r.tenants)
  have hps : ps.Pairwise le := h.pairwise_rank.imp le_of_lt
  have hinj := List.inj_on_of_nodup_map
    (List.pairwise_map.2 (h.pairwise_rank.imp fun hlt => hlt.ne))
  refine List.Perm.eq_of_pairwise (fun p p' hp hp' h₁ h₂ => ?_) hps hsorted
    (h.perm.trans hsort.symm)
  exact hinj hp (h.perm.mem_iff.2 (hsort.mem_iff.1 hp')) (le_antisymm h₁ h₂)

end Rota

namespace WorkQueue
variable [DecidableEq α]

def takes : Nat → WorkQueue α → List (Taken α)
  | 0, _ => []
  | k + 1, q => q.get.1 :: takes k q.get.2.1

/-- The items in the order in which they are handed out if nothing else happens: by their index in
the queue of their tenant, and for the same index by the turn of the tenant. -/
def inTurn : WorkQueue α → List α
  | fair q =>
    let rank := Place.rank q.tenants.cursor q.tenantCount
    ((places q.tenants.entries).insertionSort fun p p' => rank p ≤ rank p').map Place.item
  | fifo q => q.items.waiting

variable [WorkItem α] {q : WorkQueue α} {r : Rota α}

theorem takes_of_size_eq_zero (h : q.Sound) (hopen : q.shuttingDown = false) (h0 : q.size = 0)
    (k : Nat) : q.takes k = List.replicate k .blocked := by
  have hg : q.get.1 = .blocked := by
    cases hg : q.get.1 with
    | item x =>
      have := h.size_get hg
      omega
    | closed => cases hopen.symm.trans (h.get_closed hg)
    | blocked => rfl
  obtain ⟨r, hi, hr⟩ := h
  have hself : q.get.2.1 = q := get_eq_self hi hr fun x hx => by cases hg.symm.trans hx
  induction k with
  | zero => rfl
  | succ k ih => rw [takes, hg, hself, ih, List.replicate_succ]

/-- Each get serves the item that is due first, and leaves a queue with one item less. -/
theorem Implements.takes (hi : q.Implements r) (hr : r.Sound q.home)
    (hopen : q.shuttingDown = false) (k : Nat) :
    ∃ ps, r.InTurn ps ∧
      q.takes (q.size + k) = ps.map (fun p => .item p.item) ++ List.replicate k .blocked := by
  have hq : q.Sound := ⟨r, hi, hr⟩
  induction hm : q.size generalizing q r with
  | zero =>
    have hnone : places r.tenants = [] := by
      rw [← List.map_eq_nil_iff (f := Place.item), item_places, ← List.length_eq_zero_iff]
      exact (Rota.length_ready r).trans (hi.size_eq.symm.trans hm)
    refine ⟨[], ⟨hnone ▸ .refl _, .nil⟩, ?_⟩
    rw [Nat.zero_add, takes_of_size_eq_zero hq hopen hm]
    rfl
  | succ m ih =>
    cases hg : q.get.1 with
    | item x =>
      obtain ⟨i, t, rest, hs, -⟩ := hi.serving hr hg
      have hsize := hq.size_get hg
      obtain ⟨ps, hps, htakes⟩ := ih (hi.get hr).2.1 (by rw [home_get]; exact hs.sound hr)
        ((shuttingDown_get q).trans hopen) hq.get (by omega)
      refine ⟨_, hs.inTurn hr hps, ?_⟩
      rw [Nat.succ_add, WorkQueue.takes, hg, htakes]
      simp [Function.comp_def, Place.item_behind]
    | closed => cases hopen.symm.trans (hq.get_closed hg)
    | blocked =>
      have := (hq.get_blocked hg).2
      omega

omit [DecidableEq α] [WorkItem α] in
theorem item_eq_inTurn (hi : q.Implements r) {ps : List (Place α)} (hps : r.InTurn ps) :
    ps.map Place.item = q.inTurn := by
  rw [hps.eq_insertionSort]
  cases hi with
  | fair name r =>
    simp only [inTurn, FairQueue.tenantCount, Rota.toFair, Ring.size_ofEntries,
      Ring.entries_ofEntries]
    rfl
  | fifo name items served down =>
    have hrow : (row 0 items).Pairwise fun p p' => p.index < p'.index := by
      have hindices : (items.waiting.zipIdx.map Prod.snd).Pairwise (· < ·) := by
        rw [List.zipIdx_map_snd]
        exact List.pairwise_lt_range'
      exact List.pairwise_map.2 (List.pairwise_map.1 hindices)
    rw [List.Pairwise.insertionSort_eq]
    · simp [places, item_row, inTurn]
    · simpa [places] using hrow.imp fun hlt => (Prod.Lex.toLex_lt_toLex.2 (.inl hlt)).le

omit [DecidableEq α] [WorkItem α] in
theorem Implements.cursor_eq {q : FairQueue α} {r : Rota α} (h : (WorkQueue.fair q).Implements r) :
    q.tenants.cursor = r.resting := by
  cases h
  rfl

theorem resting_eq_head_after (hi : q.Implements r) (hr : r.Sound q.home) (call : Call α) :
    (r.after q.home call).resting = .head ↔
      r.resting = .head ∧ ∀ x, .handedOut x ∉ q.occurs call := by
  cases hi.served_or_quiet hr call with
  | inl h =>
    obtain ⟨y, i, t, rest, -, ho, hs, -⟩ := h
    simp [hs.resting_eq, ho]
  | inr h =>
    rw [hr.resting_after call h.1]
    exact (and_iff_left h.2).symm

/-- The cursor rests on the head until something is handed out. -/
theorem resting_eq_head_run (hi : q.Implements r) (hr : r.Sound q.home) (calls : List (Call α)) :
    (r.run q.home calls).resting = .head ↔
      r.resting = .head ∧ ∀ x, .handedOut x ∉ q.history calls := by
  induction calls generalizing q r with
  | nil => simp [Rota.run, history]
  | cons call calls ih =>
    have h := ih (hi.after hr call) (by rw [home_after]; exact hr.after call)
    rw [home_after] at h
    change (Rota.run q.home calls (r.after q.home call)).resting = .head ↔ _
    rw [h, resting_eq_head_after hi hr, history, and_assoc, ← forall_and]
    simp only [List.mem_append, not_or]

/-- However it came about, a queue that is not shutting down is emptied by gets with nothing in
between in this order: every waiting item comes once, the items with lower indices in the queues of
their tenants first, and of those with the same index the ones whose tenants come first after the
cursor, or from slot 0 on if nothing was handed out before. Every further get blocks. A plain queue
is emptied from front to back. -/
theorem drained_in_turn (flavour : Flavour) (name : Option String) (before : List (Call α))
    {q : WorkQueue α} (hq : q = run before (.empty flavour name))
    (hopen : q.shuttingDown = false) (k : Nat) :
    q.takes (q.size + k) = q.inTurn.map .item ++ List.replicate k .blocked ∧
      q.inTurn.Perm q.ready ∧ q.ready.Nodup ∧
      ∀ p, q = .fair p →
        (p.tenants.cursor = .head ↔
          ∀ x, .handedOut x ∉ history before (.empty flavour name : WorkQueue α)) := by
  have hi₀ := implements_empty (α := α) flavour name
  have hr₀ := sound_initial flavour (empty flavour name : WorkQueue α).home
  have hi := hi₀.run hr₀ before
  have hr := hr₀.run before
  have hcursor := resting_eq_head_run hi₀ hr₀ before
  rw [← hq] at hi
  have hhome : (empty flavour name : WorkQueue α).home = q.home := by rw [hq, home_run]
  rw [hhome] at hi hr hcursor
  obtain ⟨ps, hps, htakes⟩ := hi.takes hr hopen k
  have hturn := item_eq_inTurn hi hps
  refine ⟨?_, ?_, ?_, ?_⟩
  · rw [htakes, ← hturn, List.map_map]
    rfl
  · rw [← hturn, ready_eq hi, Rota.ready, ← item_places]
    exact hps.perm.map _
  · exact Sound.ready_nodup ⟨_, hi, hr⟩
  · rintro p rfl
    have hhead : (initial flavour : Rota α).resting = .head := by cases flavour <;> rfl
    rw [hi.cursor_eq, hcursor]
    exact and_iff_right hhead

/-- The cursor rests on `b`, and `c` has more waiting than the others. -/
theorem drained_in_turn_mid_ring :
    let before : List (Call String) :=
      [.add "a/1", .add "b/1", .add "b/2", .add "c/1", .add "c/2", .add "a/2", .get, .get]
    let q : WorkQueue String := run before (.empty .fair)
    q.shuttingDown = false ∧ q.inTurn = ["c/1", "a/2", "b/2", "c/2"] ∧
      q.takes (q.size + 2) = q.inTurn.map .item ++ List.replicate 2 .blocked ∧
      q.inTurn.Perm q.ready ∧ q.ready.Nodup ∧
      ∀ p, q = .fair p →
        (p.tenants.cursor = .head ↔ ∀ x, .handedOut x ∉ history before (.empty .fair)) := by
  intro before q
  have hopen : q.shuttingDown = false := by decide
  exact ⟨hopen, by decide, drained_in_turn .fair none before rfl hopen 2⟩

end WorkQueue

end TenantQueue.Queue
