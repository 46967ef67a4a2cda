import TenantQueue.Proofs.Queue.History

/-! No item overtakes another. The items of a queue in which an item waits at most once are handed
out in the order in which they became ready: when they were added, or, if they were being processed
then, when the work on them was done. -/
namespace TenantQueue.Queue
variable {α : Type}

section Histories
variable [DecidableEq α]

/-- What decides is which of the two occurred last. -/
theorem since_iff_find? (o stop : Occurrence α) (h : List (Occurrence α)) :
    Since o stop h ↔ (h.reverse.find? fun o' => o' = o ∨ o' = stop) = some o := by
  induction h using List.reverseRecOn with
  | nil => exact iff_of_false (not_since_nil o stop) (by simp)
  | append_singleton h o' ih =>
    rw [since_snoc, List.reverse_append, List.reverse_singleton, List.singleton_append,
      List.find?_cons]
    by_cases ho : o' = o
    · simp [ho]
    · by_cases hs : o' = stop
      · subst hs
        simp [ho]
      · simp [ho, hs, ih]

instance (o stop : Occurrence α) (h : List (Occurrence α)) : Decidable (Since o stop h) :=
  decidable_of_iff _ (since_iff_find? o stop h).symm

instance (x : α) (h : List (Occurrence α)) : Decidable (Due x h) :=
  inferInstanceAs (Decidable (Since _ _ h))

instance (x : α) (h : List (Occurrence α)) : Decidable (Out x h) :=
  inferInstanceAs (Decidable (Since _ _ h))

def readied (h : List (Occurrence α)) : Occurrence α → Option α
  | .added x => if Due x h ∨ Out x h then none else some x
  | .handedOut _ => none
  | .returned x => if Out x h ∧ Due x h then some x else none

def arrivalsAfter : List (Occurrence α) → List (Occurrence α) → List α
  | _, [] => []
  | h, o :: later => (readied h o).toList ++ arrivalsAfter (h ++ [o]) later

def arrivals (h : List (Occurrence α)) : List α := arrivalsAfter [] h

theorem arrivalsAfter_snoc (h later : List (Occurrence α)) (o : Occurrence α) :
    arrivalsAfter h (later ++ [o]) =
      arrivalsAfter h later ++ (readied (h ++ later) o).toList := by
  induction later generalizing h with
  | nil => simp [arrivalsAfter]
  | cons o' later ih =>
    rw [List.cons_append, arrivalsAfter, arrivalsAfter, ih, List.append_assoc, List.append_assoc,
      List.singleton_append]

theorem arrivals_snoc (h : List (Occurrence α)) (o : Occurrence α) :
    arrivals (h ++ [o]) = arrivals h ++ (readied h o).toList := arrivalsAfter_snoc [] h o

end Histories

def Occurrence.handedOut? : Occurrence α → Option α
  | .handedOut x => some x
  | _ => none

def handed (h : List (Occurrence α)) : List α := h.filterMap Occurrence.handedOut?

theorem handed_snoc (h : List (Occurrence α)) (o : Occurrence α) :
    handed (h ++ [o]) = handed h ++ o.handedOut?.toList := by
  rw [handed, List.filterMap_append]
  cases ho : o.handedOut? <;> simp [handed, ho]

namespace DedupQueue

inductive Op (α : Type) where
  | add (x : α)
  | get
  | done (x : α)
  deriving DecidableEq, Repr

variable [DecidableEq α]

def after (q : DedupQueue α) : Op α → DedupQueue α
  | .add x => q.add x
  | .get => q.get?.elim q Prod.snd
  | .done x => (q.done x).2

def occurs (q : DedupQueue α) : Op α → List (Occurrence α)
  | .add x => [.added x]
  | .get => q.get?.elim [] fun taken => [.handedOut taken.1]
  | .done x => [.returned x]

def run (ops : List (Op α)) (q : DedupQueue α) : DedupQueue α := ops.foldl after q

def history : List (Op α) → DedupQueue α → List (Occurrence α)
  | [], _ => []
  | op :: ops, q => q.occurs op ++ history ops (q.after op)

/-- What a queue holds after what has occurred at it: the items that were handed out and those that
wait are together the items that have become ready. -/
structure Orderly (q : DedupQueue α) (h : List (Occurrence α)) : Prop where
  mem_dirty (x : α) : x ∈ q.dirty ↔ Due x h
  mem_processing (x : α) : x ∈ q.processing ↔ Out x h
  in_order : handed h ++ q.waiting = arrivals h

variable {q : DedupQueue α} {h : List (Occurrence α)}

theorem orderly_empty : ({} : DedupQueue α).Orderly [] where
  mem_dirty _ := iff_of_false List.not_mem_nil (not_since_nil _ _)
  mem_processing _ := iff_of_false List.not_mem_nil (not_since_nil _ _)
  in_order := rfl

theorem Orderly.add (ho : q.Orderly h) (x : α) : (q.add x).Orderly (h ++ [.added x]) where
  mem_dirty y := by rw [mem_dirty_add, due_added, ho.mem_dirty]
  mem_processing y := by rw [processing_add, out_added, ho.mem_processing]
  in_order := by
    simp only [handed_snoc, arrivals_snoc, ← ho.in_order, waiting_add, ho.mem_dirty,
      ho.mem_processing, readied]
    split <;> simp [Occurrence.handedOut?]

theorem Orderly.get {x : α} {q' : DedupQueue α} (ho : q.Orderly h) (hg : q.get? = some (x, q')) :
    q'.Orderly (h ++ [.handedOut x]) where
  mem_dirty y := by rw [mem_dirty_get hg, due_handedOut, ho.mem_dirty]
  mem_processing y := by rw [mem_processing_get hg, out_handedOut, ho.mem_processing]
  in_order := by
    rw [handed_snoc, arrivals_snoc, ← ho.in_order, (get?_eq_some hg).1]
    simp [Occurrence.handedOut?, readied]

theorem Orderly.done (ho : q.Orderly h) (x : α) : (q.done x).2.Orderly (h ++ [.returned x]) where
  mem_dirty y := by rw [dirty_done, due_returned, ho.mem_dirty]
  mem_processing y := by rw [mem_processing_done, out_returned, ho.mem_processing]
  in_order := by
    simp only [handed_snoc, arrivals_snoc, ← ho.in_order, waiting_done, ho.mem_dirty,
      ho.mem_processing, readied]
    split <;> simp [Occurrence.handedOut?]

theorem Orderly.after (ho : q.Orderly h) (op : Op α) :
    (q.after op).Orderly (h ++ q.occurs op) := by
  cases op with
  | add x => exact ho.add x
  | get =>
    unfold DedupQueue.after occurs
    cases hg : q.get? with
    | none => simpa using ho
    | some taken => exact ho.get hg
  | done x => exact ho.done x

theorem Orderly.run (ho : q.Orderly h) (ops : List (Op α)) :
    (q.run ops).Orderly (h ++ q.history ops) := by
  induction ops generalizing q h with
  | nil =>
    rw [history, List.append_nil]
    exact ho
  | cons op ops ih =>
    rw [history, ← List.append_assoc]
    exact ih (ho.after op)

/-- After whatever calls, the items handed out so far and then those that wait, from front to back,
are the items in the order in which they became ready. A call for an item gets none only if all of
them were handed out, and the end of the work on an item makes it ready just when that is told. What
is dirty and what is checked out is as the history says. -/
theorem no_overtaking (ops : List (Op α)) :
    let q : DedupQueue α := run ops {}
    let h := history ops {}
    handed h ++ q.waiting = arrivals h ∧
      (q.get? = none ↔ handed h = arrivals h) ∧
      (∀ x, (q.done x).1 = true ↔ readied h (.returned x) = some x) ∧
      ∀ x, (q.isDirty x = true ↔ Due x h) ∧ (q.isProcessing x = true ↔ Out x h) := by
  intro q h
  have ho : q.Orderly h := orderly_empty.run ops
  refine ⟨ho.in_order, ?_, fun x => ?_, fun x => ⟨?_, ?_⟩⟩
  · rw [get?_eq_none, ← ho.in_order, List.self_eq_append_right]
  · rw [done_fst, ho.mem_processing, ho.mem_dirty, readied]
    simp
  · rw [isDirty, decide_eq_true_iff, ho.mem_dirty]
  · rw [isProcessing, decide_eq_true_iff, ho.mem_processing]

end DedupQueue

end TenantQueue.Queue
