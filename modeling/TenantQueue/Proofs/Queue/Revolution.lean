import TenantQueue.Proofs.Queue.RingLayout

/-! One revolution of a ring. Starting from where the cursor rests, the slots come in the order of
their numbers from the one after the cursor on, then from the first, the cursor's own last. A scan
of a laid out ring visits its entries in that order until the visitor has enough. -/
namespace TenantQueue.Queue
variable {κ ν σ : Type}

namespace Position

def Within (n : Nat) : Position → Prop
  | head => True
  | slot i => i < n

def revolution (n : Nat) : Position → List Nat
  | head => List.range' 0 n
  | slot c => List.range' (c + 1) (n - (c + 1)) ++ List.range' 0 c ++ [c]

theorem mem_revolution {n : Nat} {c : Position} (h : c.Within n) (i : Nat) :
    i ∈ c.revolution n ↔ i < n := by
  cases c with
  | head => simp [revolution]
  | slot c =>
    simp only [Within] at h
    simp only [revolution, List.mem_append, List.mem_range'_1, List.mem_singleton]
    omega

def Precedes : Position → Nat → Nat → Prop
  | head, i, j => i < j
  | slot c, i, j => if i ≤ c then i < j ∧ j ≤ c else i < j ∨ j ≤ c

instance (c : Position) (i j : Nat) : Decidable (c.Precedes i j) :=
  match c with
  | head => inferInstanceAs (Decidable (i < j))
  | slot c => inferInstanceAs (Decidable (if i ≤ c then i < j ∧ j ≤ c else i < j ∨ j ≤ c))

theorem revolution_pairwise (n : Nat) (c : Position) : (c.revolution n).Pairwise c.Precedes := by
  cases c with
  | head => exact List.pairwise_lt_range'
  | slot c =>
    refine List.pairwise_append.2
      ⟨List.pairwise_append.2 ⟨?_, ?_, ?_⟩, List.pairwise_singleton _ _, ?_⟩
    · refine (List.pairwise_lt_range' 1).imp_of_mem fun hi _ hij => ?_
      rw [List.mem_range'_1] at hi
      simp only [Precedes]
      split <;> omega
    · refine (List.pairwise_lt_range' 1).imp_of_mem fun hi hj hij => ?_
      rw [List.mem_range'_1] at hi hj
      simp only [Precedes]
      split <;> omega
    · intro i hi j hj
      rw [List.mem_range'_1] at hi hj
      simp only [Precedes]
      split <;> omega
    · intro i hi j hj
      rw [List.mem_append, List.mem_range'_1, List.mem_range'_1] at hi
      rw [List.mem_singleton] at hj
      simp only [Precedes]
      split <;> omega

/-- Once a slot before slot `k` was served, no slot comes before `k` that did not before. -/
theorem Precedes.of_served {c : Position} {i j k : Nat} (hi : c.Precedes i k)
    (hj : (slot i).Precedes j k) : c.Precedes j k := by
  cases c with
  | head =>
    simp only [Precedes] at *
    split at hj <;> omega
  | slot c =>
    simp only [Precedes] at *
    split at hi <;> split at hj <;> split <;> omega

end Position

namespace Ring

def sweep (visit : Visitor σ ν) :
    List Nat → List (κ × ν) → σ → Option Nat × List (κ × ν) × σ
  | [], es, s => (none, es, s)
  | i :: order, es, s =>
    match es[i]? with
    | none => sweep visit order es s
    | some e =>
      let (more, v, s) := visit s e.2
      let es := es.modify i fun e => (e.1, v)
      if more then sweep visit order es s else (some i, es, s)

def afterSweep (c : Position) : Option Nat × List (κ × ν) × σ → Ring κ ν × σ
  | (stop, es, s) => (ofEntries es (stop.elim c .slot), s)

variable (visit : Visitor σ ν)

theorem sweep_append (front back : List Nat) (es : List (κ × ν)) (s : σ) :
    sweep visit (front ++ back) es s =
      match sweep visit front es s with
      | (none, es, s) => sweep visit back es s
      | stopped => stopped := by
  induction front generalizing es s with
  | nil => rfl
  | cons i front ih =>
    simp only [List.cons_append, sweep]
    cases es[i]? with
    | none => exact ih es s
    | some e =>
      dsimp only
      split
      · exact ih _ _
      · rfl

theorem length_sweep (order : List Nat) (es : List (κ × ν)) (s : σ) :
    (sweep visit order es s).2.1.length = es.length := by
  induction order generalizing es s with
  | nil => rfl
  | cons i order ih =>
    unfold sweep
    cases es[i]? with
    | none => exact ih es s
    | some e =>
      dsimp only
      split
      · simpa using ih (es.modify i fun e' => (e'.1, (visit s e.2).2.1)) (visit s e.2).2.2
      · simp

theorem rangeNextFrom_visit {start : Position} {i : Nat} (h : .slot i ≠ start) (fuel : Nat)
    (r : Ring κ ν) (s : σ) :
    rangeNextFrom visit start (fuel + 1) (.slot i) r s =
      (r.valueAt? (.slot i)).bind fun v =>
        if (visit s v).1 then
          rangeNextFrom visit start fuel ((r.setValue i (visit s v).2.1).next (.slot i))
            (r.setValue i (visit s v).2.1) (visit s v).2.2
        else some ({ r.setValue i (visit s v).2.1 with cursor := .slot i }, (visit s v).2.2) := by
  rw [rangeNextFrom.eq_def]
  exact if_neg h

theorem rangeNextFrom_over_head {start : Position} (h : .head ≠ start) (fuel : Nat)
    (r : Ring κ ν) (s : σ) :
    rangeNextFrom visit start (fuel + 1) .head r s =
      rangeNextFrom visit start fuel (r.next .head) r s := by
  rw [rangeNextFrom.eq_def]
  exact if_neg h

theorem rangeNextFrom_home (fuel c : Nat) (r : Ring κ ν) (s : σ) :
    rangeNextFrom visit (.slot c) (fuel + 1) (.slot c) r s =
      (r.valueAt? (.slot c)).map fun v =>
        (r.setValue c (visit s v).2.1, (visit s v).2.2) := by
  rw [rangeNextFrom.eq_def]
  exact if_pos rfl

/-- The links lead through a stretch of slots that does not hold the start. -/
theorem rangeNextFrom_stretch (start : Position) (k fuel i : Nat) (es : List (κ × ν)) (s : σ)
    (hk : i + k ≤ es.length) (hs : ∀ j, i ≤ j → j < i + k → start ≠ .slot j) :
    rangeNextFrom visit start (fuel + k) (.ofIndex es.length i) (ofEntries es start) s =
      match sweep visit (List.range' i k) es s with
      | (none, es', s') =>
        rangeNextFrom visit start fuel (.ofIndex es.length (i + k)) (ofEntries es' start) s'
      | stopped => some (afterSweep start stopped) := by
  induction k generalizing i es s with
  | zero => rfl
  | succ k ih =>
    have hi : i < es.length := by omega
    have hne : Position.slot i ≠ start := (hs i (Nat.le_refl i) (by omega)).symm
    have hp : Position.ofIndex es.length i = .slot i := if_pos hi
    rw [← Nat.add_assoc, hp, rangeNextFrom_visit visit hne]
    simp only [valueAt?_ofEntries, setValue_ofEntries, List.range'_succ, sweep,
      List.getElem?_eq_getElem hi, Option.map_some, Option.bind_some]
    cases hv : (visit s es[i].2).1 with
    | false => rfl
    | true =>
      have hm : i < (es.modify i fun e => (e.1, (visit s es[i].2).2.1)).length := by simpa using hi
      have h := ih (i + 1) (es.modify i fun e => (e.1, (visit s es[i].2).2.1))
        (visit s es[i].2).2.2 (by simp; omega) fun j hj hj' => hs j (by omega) (by omega)
      simp only [List.length_modify] at h
      simp only [if_true, next_slot_ofEntries _ _ hm, List.length_modify]
      rw [h, Nat.add_right_comm i 1 k]
      rfl

/-- The slot under the cursor comes last, and the cursor stays there either way. -/
theorem rangeNextFrom_last (fuel : Nat) {c : Nat} (es : List (κ × ν)) (s : σ)
    (hc : c < es.length) :
    rangeNextFrom visit (.slot c) (fuel + 1) (.slot c) (ofEntries es (.slot c)) s =
      some (afterSweep (.slot c) (sweep visit [c] es s)) := by
  rw [rangeNextFrom_home, valueAt?_ofEntries]
  simp only [List.getElem?_eq_getElem hc, Option.map_some, setValue_ofEntries, sweep]
  cases (visit s es[c].2).1 <;> rfl

/-- From behind the slot under the cursor the links lead to the head, on to that slot, and end. -/
theorem rangeNextFrom_wrap {c : Nat} (es : List (κ × ν)) (s : σ) (hc : c < es.length) :
    rangeNextFrom visit (.slot c) (c + 2) .head (ofEntries es (.slot c)) s =
      some (afterSweep (.slot c) (sweep visit (List.range' 0 c ++ [c]) es s)) := by
  have h := rangeNextFrom_stretch visit (.slot c) c 1 0 es s (by omega)
    fun j _ hj => by simp; omega
  rw [rangeNextFrom_over_head visit (by simp), next_head_ofEntries, Nat.add_comm c 1, h,
    sweep_append]
  have hl := length_sweep visit (List.range' 0 c) es s
  split
  · next es' s' hsw =>
    rw [hsw] at hl
    have hp : Position.ofIndex es.length (0 + c) = .slot c := by simp [Position.ofIndex, hc]
    rw [hp]
    exact rangeNextFrom_last visit 0 es' s' (hl.symm ▸ hc)
  · rfl

/-- The links come round from the slot after the cursor, and lead once through the revolution. -/
theorem rangeNextFrom_ofEntries (es : List (κ × ν)) (c : Position) (hc : c.Within es.length)
    (s : σ) :
    rangeNextFrom visit c (es.length + 1) ((ofEntries es c).next c) (ofEntries es c) s =
      some (afterSweep c (sweep visit (c.revolution es.length) es s)) := by
  have hend : Position.ofIndex es.length es.length = .head := if_neg (Nat.lt_irrefl _)
  cases c with
  | head =>
    have h := rangeNextFrom_stretch visit .head es.length 1 0 es s (by omega) (by simp)
    rw [next_head_ofEntries, Nat.add_comm es.length 1, h, Position.revolution, Nat.zero_add, hend]
    split
    · next es' s' hsw =>
      rw [hsw]
      rfl
    · rfl
  | slot c =>
    have hc : c < es.length := hc
    have h := rangeNextFrom_stretch visit (.slot c) (es.length - (c + 1)) (c + 2) (c + 1) es s
      (by omega) fun j hj _ => by simp; omega
    have hfuel : es.length + 1 = c + 2 + (es.length - (c + 1)) := by omega
    have hstop : c + 1 + (es.length - (c + 1)) = es.length := by omega
    rw [next_slot_ofEntries _ _ hc, hfuel, h, hstop, hend, Position.revolution, List.append_assoc,
      sweep_append]
    have hl := length_sweep visit (List.range' (c + 1) (es.length - (c + 1))) es s
    split
    · next es' s' hsw =>
      rw [hsw] at hl
      rw [rangeNextFrom_wrap visit es' s' (hl.symm ▸ hc)]
    · rfl

/-- A scan is a sweep through one revolution. -/
theorem rangeNext_ofEntries (es : List (κ × ν)) (c : Position) (hc : c.Within es.length) (s : σ) :
    (ofEntries es c).rangeNext visit s =
      afterSweep c (sweep visit (c.revolution es.length) es s) := by
  have hcursor : (ofEntries es c).cursor = c := rfl
  rw [rangeNext, length_slots_ofEntries, hcursor, rangeNextFrom_ofEntries visit es c hc,
    Option.getD_some]

end Ring

end TenantQueue.Queue
