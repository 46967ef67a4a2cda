import TenantQueue.Proofs.Queue.Items

/-! Runs of calls. Each call is one critical section, so that whatever producers and consumers do at
the same time, the queue sees the calls one after the other. -/
namespace TenantQueue.Queue
variable {α : Type}

/-- A consumer that waits calls `get` again when it is woken. -/
inductive Call (α : Type) where
  | add (x : α)
  | get
  | done (x : α)
  | shutDown
  deriving DecidableEq, Repr

/-- What can be observed of a call, whether the queue accepts its item or not. -/
inductive Occurrence (α : Type) where
  | added (x : α)
  | handedOut (x : α)
  | returned (x : α)
  deriving DecidableEq, Repr

namespace Rota
variable {belongs : α → Option String}

def keys (r : Rota α) : List String := r.tenants.map Prod.fst

theorem keys_withPart (r : Rota α) (t : String) (items : DedupQueue α) (served : Option Nat) :
    r.keys <+: (r.withPart t items served).keys := by
  simp only [keys, withPart, Ring.keys_assign]
  split
  · exact List.prefix_refl _
  · exact List.prefix_append _ _

variable [DecidableEq α]

def after (belongs : α → Option String) (r : Rota α) : Call α → Rota α
  | .add x =>
    match belongs x with
    | some t => r.put t x
    | none => r
  | .get => r.get.2
  | .done x =>
    match belongs x with
    | some t => (r.finish t x).2
    | none => r
  | .shutDown => r.shutDown

/-- A rota that has nothing to hand out stays as it is. -/
theorem get_eq_self {r : Rota α} (h : r.Sound belongs) (hg : ∀ x, r.get.1 ≠ .item x) :
    r.get.2 = r := by
  rcases hr : r.get with ⟨x | _ | _, r'⟩
  · exact absurd (by rw [hr]) (hg x)
  · exact (get_closed hr).2
  · exact (get_blocked h hr).2.1

theorem Sound.after {r : Rota α} (h : r.Sound belongs) (call : Call α) :
    (r.after belongs call).Sound belongs := by
  cases call with
  | add x =>
    simp only [Rota.after]
    split
    · next hx => exact h.put hx
    · exact h
  | get =>
    rcases hr : r.get with ⟨taken, r'⟩
    cases taken with
    | item x =>
      obtain ⟨i, t, rest, hs⟩ := get_item h hr
      simpa only [Rota.after, hr] using hs.sound h
    | closed => simpa only [Rota.after, hr, (get_closed hr).2] using h
    | blocked => simpa only [Rota.after, hr, (get_blocked h hr).2.1] using h
  | done x =>
    simp only [Rota.after]
    split
    · exact h.finish _ x
    · exact h
  | shutDown => exact h.shutDown

/-- No tenant is ever removed or moved. -/
theorem keys_after {r : Rota α} (h : r.Sound belongs) (call : Call α) :
    r.keys <+: (r.after belongs call).keys := by
  cases call with
  | add x =>
    simp only [after]
    split
    · exact keys_withPart ..
    · exact List.prefix_refl _
  | get =>
    rcases hr : r.get with ⟨taken, r'⟩
    cases taken with
    | item x =>
      obtain ⟨i, t, rest, hs⟩ := get_item h hr
      simp only [after, hr, hs.left]
      exact keys_withPart ..
    | closed => simp only [after, hr, (get_closed hr).2, List.prefix_refl]
    | blocked => simp only [after, hr, (get_blocked h hr).2.1, List.prefix_refl]
  | done x =>
    simp only [after]
    split
    · next t _ =>
      cases r.finish_snd t x with
      | inl h =>
        obtain ⟨e, -⟩ := h
        exact e.symm ▸ List.prefix_refl r.keys
      | inr e =>
        rw [e]
        exact keys_withPart ..
    · exact List.prefix_refl _
  | shutDown => exact List.prefix_refl _

def run (belongs : α → Option String) (calls : List (Call α)) (r : Rota α) : Rota α :=
  calls.foldl (after belongs) r

theorem Sound.run {r : Rota α} (h : r.Sound belongs) (calls : List (Call α)) :
    (r.run belongs calls).Sound belongs := by
  induction calls generalizing r with
  | nil => exact h
  | cons call calls ih => exact ih (h.after call)

theorem keys_run {r : Rota α} (h : r.Sound belongs) (calls : List (Call α)) :
    r.keys <+: (r.run belongs calls).keys := by
  induction calls generalizing r with
  | nil => exact List.prefix_refl _
  | cons call calls ih => exact (keys_after h call).trans (ih (h.after call))

end Rota

namespace WorkQueue
variable [WorkItem α]

theorem sound_empty (flavour : Flavour) (name : Option String) :
    (empty flavour name : WorkQueue α).Sound := by
  refine ⟨initial flavour, implements_empty flavour name, ?_⟩
  rw [home, flavour_empty]
  exact sound_initial flavour _

/-- No item is held by an empty queue. -/
theorem not_held_empty (flavour : Flavour) (name : Option String) (x : α) :
    ¬ (empty flavour name : WorkQueue α).IsDirty x ∧
      ¬ (empty flavour name : WorkQueue α).IsProcessing x := by
  have hi := implements_empty (α := α) flavour name
  have hs : (initial flavour : Rota α).Sound (empty flavour name : WorkQueue α).home :=
    sound_initial flavour _
  simp [isDirty_iff hi hs, isProcessing_iff hi hs, initial_part]

variable [DecidableEq α]

def answer (q : WorkQueue α) : Call α → Option (Taken α) × WorkQueue α × Effects
  | .add x => (none, q.add x)
  | .get => (some q.get.1, q.get.2)
  | .done x => (none, q.done x)
  | .shutDown => (none, q.shutDown)

def after (q : WorkQueue α) (call : Call α) : WorkQueue α := (q.answer call).2.1

def run (calls : List (Call α)) (q : WorkQueue α) : WorkQueue α := calls.foldl after q

def occurs (q : WorkQueue α) : Call α → List (Occurrence α)
  | .add x => [.added x]
  | .get =>
    match q.get.1 with
    | .item x => [.handedOut x]
    | _ => []
  | .done x => [.returned x]
  | .shutDown => []

def history : List (Call α) → WorkQueue α → List (Occurrence α)
  | [], _ => []
  | call :: calls, q => q.occurs call ++ history calls (q.after call)

variable {q : WorkQueue α}

theorem flavour_after (q : WorkQueue α) (call : Call α) : (q.after call).flavour = q.flavour := by
  cases call with
  | add x => exact flavour_add q x
  | get => exact flavour_get q
  | done x => exact flavour_done q x
  | shutDown => exact flavour_shutDown q

theorem home_after (q : WorkQueue α) (call : Call α) : (q.after call).home = q.home := by
  rw [home, flavour_after, ← home]

theorem Implements.after {r : Rota α} (hi : q.Implements r) (hr : r.Sound q.home) (call : Call α) :
    (q.after call).Implements (r.after q.home call) := by
  cases call with
  | add x =>
    simp only [Rota.after]
    split
    · next hx => exact (hi.add hx).1
    · next hx =>
      change (q.add x).1.Implements r
      rwa [(q.rejects hx).1.1]
  | get => exact (hi.get hr).2.1
  | done x =>
    simp only [Rota.after]
    split
    · next hx => exact (hi.done hx).1
    · next hx =>
      change (q.done x).1.Implements r
      rwa [(q.rejects hx).2.1]
  | shutDown => exact hi.shutDown.1

theorem Implements.run {r : Rota α} (hi : q.Implements r) (hr : r.Sound q.home)
    (calls : List (Call α)) : (q.run calls).Implements (r.run q.home calls) := by
  induction calls generalizing q r with
  | nil => exact hi
  | cons call calls ih =>
    have h := ih (hi.after hr call) (by rw [home_after]; exact hr.after call)
    rwa [home_after] at h

theorem flavour_run (calls : List (Call α)) (q : WorkQueue α) :
    (q.run calls).flavour = q.flavour := by
  induction calls generalizing q with
  | nil => rfl
  | cons call calls ih => exact (ih (q.after call)).trans (flavour_after q call)

theorem home_run (calls : List (Call α)) (q : WorkQueue α) : (q.run calls).home = q.home := by
  rw [home, flavour_run, ← home]

/-- Only one call closes a queue. -/
theorem shuttingDown_run {calls : List (Call α)} (h : .shutDown ∉ calls) (q : WorkQueue α) :
    (q.run calls).shuttingDown = q.shuttingDown := by
  induction calls generalizing q with
  | nil => rfl
  | cons call calls ih =>
    rw [List.mem_cons, not_or] at h
    refine (ih h.2 (q.after call)).trans ?_
    cases call with
    | add x => exact shuttingDown_add q x
    | get => exact shuttingDown_get q
    | done x => exact shuttingDown_done q x
    | shutDown => exact absurd rfl h.1

theorem Sound.after (h : q.Sound) (call : Call α) : (q.after call).Sound := by
  cases call with
  | add x => exact h.add x
  | get => exact h.get
  | done x => exact h.done x
  | shutDown => exact h.shutDown

theorem Sound.run (h : q.Sound) (calls : List (Call α)) : (q.run calls).Sound := by
  induction calls generalizing q with
  | nil => exact h
  | cons call calls ih => exact ih (h.after call)

end WorkQueue

end TenantQueue.Queue
