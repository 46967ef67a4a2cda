import TenantQueue.Proofs.Crew.Holders

/-! How often a crew hands an item out. An item is handed out once for each time it becomes dirty:
when a producer adds it, and when a consumer does that holds it. A consumer adds it again at most
once for each time that it was handed out, and only the first few times. -/
namespace TenantQueue.Queue
variable {α : Type}

namespace Consumer
variable [DecidableEq α]

def ponders (x : α) (w : Consumer α) : Bool := w == .holding x

theorem ponders_holding (x y : α) : ponders x (.holding y) = true ↔ y = x := by simp [ponders]

end Consumer

theorem WorkQueue.Sound.isDirty_add_iff [DecidableEq α] [WorkItem α] {q : WorkQueue α}
    (h : q.Sound) (x y : α) :
    (q.add x).1.IsDirty y ↔ (y = x ∧ (q.home y).isSome) ∨ q.IsDirty y := by
  cases hx : q.home x with
  | none =>
    rw [(q.rejects hx).1.1]
    refine ⟨.inr, fun hd => hd.resolve_left ?_⟩
    rintro ⟨rfl, hs⟩
    simp [hx] at hs
  | some t =>
    rw [h.isDirty_add hx]
    refine or_congr_left ⟨?_, And.left⟩
    rintro rfl
    exact ⟨rfl, by simp [hx]⟩

/-- A list of lists loses one item when the first of one list is taken away. -/
theorem flatten_set_perm {l : List (List α)} {i : Nat} {x : α} {rest : List α}
    (h : l[i]? = some (x :: rest)) : (x :: (l.set i rest).flatten).Perm l.flatten := by
  induction l generalizing i with
  | nil => cases h
  | cons items l ih =>
    cases i with
    | zero =>
      cases h
      exact List.Perm.refl _
    | succ i => exact List.perm_middle.symm.trans ((ih h).append_left items)

namespace Crew
variable [DecidableEq α] {c c' : Crew α} {i : Nat} {m : Monitor α} {x y : α}

def unadded (c : Crew α) (x : α) : Nat := c.producers.flatten.count x

def served (c : Crew α) (x : α) : Nat := c.handedOut.count x

def pondering (c : Crew α) (x : α) : Nat := c.consumers.countP (Consumer.ponders x)

variable [WorkItem α]

inductive Flow (c c' : Crew α) (x : α) : Prop where
  | same (hd : c'.monitor.queue.IsDirty x ↔ c.monitor.queue.IsDirty x)
    (hu : c'.unadded x = c.unadded x) (hs : c'.served x = c.served x)
    (hp : c'.pondering x = c.pondering x)
  /-- A producer adds the item. -/
  | added
    (hd : c'.monitor.queue.IsDirty x ↔
      (c.monitor.queue.home x).isSome ∨ c.monitor.queue.IsDirty x)
    (hu : c.unadded x = c'.unadded x + 1) (hs : c'.served x = c.served x)
    (hp : c'.pondering x = c.pondering x)
  | taken (hd : c.monitor.queue.IsDirty x) (hd' : ¬ c'.monitor.queue.IsDirty x)
    (hu : c'.unadded x = c.unadded x) (hs : c'.served x = c.served x + 1)
    (hp : c'.pondering x = c.pondering x + 1)
  /-- A consumer adds the item that it holds. -/
  | readded (hle : c.served x ≤ c.readds)
    (hd : c'.monitor.queue.IsDirty x ↔
      (c.monitor.queue.home x).isSome ∨ c.monitor.queue.IsDirty x)
    (hu : c'.unadded x = c.unadded x) (hs : c'.served x = c.served x)
    (hp : c.pondering x = c'.pondering x + 1)
  /-- A consumer does not add the item that it holds. -/
  | kept (hlt : c.readds < c.served x)
    (hd : c'.monitor.queue.IsDirty x ↔ c.monitor.queue.IsDirty x)
    (hu : c'.unadded x = c.unadded x) (hs : c'.served x = c.served x)
    (hp : c.pondering x = c'.pondering x + 1)

omit [WorkItem α] in
/-- A consumer that sees to the item it holds has nothing to see to any more. -/
theorem pondering_set (hw : c.consumers[i]? = some (.holding x)) (y : α) :
    c.pondering y = (c.consumers.set i (.returning x)).countP (Consumer.ponders y) +
      if x = y then 1 else 0 := by
  have hset := countP_set_add (Consumer.ponders y) hw (.returning x)
  have hreturning : Consumer.ponders y (.returning x) = false := rfl
  simp only [Consumer.ponders_holding, hreturning] at hset
  exact hset.symm

theorem Step.flow (h : c.Step c') (hs : c.monitor.queue.Sound) (y : α) : Flow c c' y := by
  have hvain {i : Nat} {m : Monitor α} (ha : c.Asks i m) (hg : ∀ x, m.queue.get.1 ≠ .item x) :
      m.ask.2.1.queue = c.monitor.queue := by
    rw [Monitor.queue_ask]
    rw [ha.queue_eq] at hg ⊢
    exact hs.get_eq_self hg
  cases h with
  | @adds i x rest hp =>
    have hunadded : c.unadded y =
        (c.producers.set i rest).flatten.count y + if x = y then 1 else 0 := by
      rw [unadded, ← (flatten_set_perm hp).count_eq, List.count_cons]
      simp only [beq_iff_eq]
    have hdirty := hs.isDirty_add_iff x y
    by_cases hy : x = y
    · subst hy
      rw [if_pos rfl] at hunadded
      refine .added ?_ hunadded rfl rfl
      simpa [Monitor.queue_add] using hdirty
    · rw [if_neg hy, Nat.add_zero] at hunadded
      refine .same ?_ hunadded.symm rfl rfl
      simpa [Monitor.queue_add, Ne.symm hy] using hdirty
  | delivers => exact .same (by simp only [Monitor.queue_deliver]) rfl rfl rfl
  | @takes i m x ha hg =>
    have hponders := ha.countP_set (P := Consumer.ponders y) rfl rfl (.holding x)
    rw [ha.queue_eq] at hg
    have hdirty := hs.isDirty_get hg y
    simp only [Consumer.ponders_holding] at hponders
    by_cases hy : x = y
    · subst hy
      refine .taken (hs.waiting_of_get hg).1 ?_ rfl List.count_cons_self
        (hponders.trans (by rw [if_pos rfl]; rfl))
      simp [become, Monitor.queue_ask, ha.queue_eq, hdirty]
    · refine .same ?_ rfl (List.count_cons_of_ne hy) (hponders.trans (by rw [if_neg hy]; rfl))
      simp [become, Monitor.queue_ask, ha.queue_eq, hdirty, Ne.symm hy]
  | parks ha hg =>
    refine .same ?_ rfl rfl (ha.countP_set rfl rfl _)
    simp only [become, hvain ha (by simp [hg])]
  | leaves ha hg =>
    refine .same ?_ rfl rfl (ha.countP_set rfl rfl _)
    simp only [become, hvain ha (by simp [hg])]
  | @readds i x hw hr =>
    have hponders := pondering_set hw y
    have hdirty := hs.isDirty_add_iff x y
    by_cases hy : x = y
    · subst hy
      rw [if_pos rfl] at hponders
      refine .readded hr ?_ rfl rfl hponders
      simpa [become, Monitor.queue_add] using hdirty
    · rw [if_neg hy, Nat.add_zero] at hponders
      refine .same ?_ rfl rfl hponders.symm
      simpa [become, Monitor.queue_add, Ne.symm hy] using hdirty
  | @keeps i x hw hr =>
    have hponders := pondering_set hw y
    by_cases hy : x = y
    · subst hy
      rw [if_pos rfl] at hponders
      exact .kept hr Iff.rfl rfl rfl hponders
    · rw [if_neg hy, Nat.add_zero] at hponders
      exact .same Iff.rfl rfl rfl hponders.symm
  | @returns i x hw =>
    have hponders := countP_set_add (Consumer.ponders y) hw .asking
    refine .same ?_ rfl rfl hponders
    simp only [become, Monitor.queue_done, hs.isDirty_done]

theorem Step.readds_eq (h : c.Step c') : c'.readds = c.readds := by cases h <;> rfl

structure Balanced (planned : α → Nat) (c : Crew α) : Prop where
  unadded_le (x : α) : c.unadded x ≤ planned x
  pondering_le (x : α) : c.pondering x ≤ c.served x
  /-- Each time that it was handed out the item had become dirty. -/
  served_le (x : α) : c.served x + (if c.monitor.queue.IsDirty x then 1 else 0) + c.unadded x ≤
    planned x + min (c.served x - c.pondering x) c.readds
  /-- Only what was added is dirty, or was handed out. -/
  added (x : α) : c.monitor.queue.IsDirty x ∨ 0 < c.served x → c.unadded x < planned x
  accepted (x : α) : 0 < c.served x → (c.monitor.queue.home x).isSome
  /-- What was added is dirty, or held by a consumer that may add it, or was handed out often
  enough. -/
  live (x : α) : (c.monitor.queue.home x).isSome → c.unadded x < planned x →
    ¬ c.monitor.queue.IsDirty x → c.pondering x = 0 → c.readds < c.served x

variable {planned : α → Nat}

theorem Step.balanced (h : c.Step c') (hs : c.monitor.queue.Sound) (hb : c.Balanced planned) :
    c'.Balanced planned := by
  have hflow (x : α) : c.Flow c' x := h.flow hs x
  have hreadds := h.readds_eq
  have hhome := h.home_eq
  constructor
  · intro x
    have := hb.unadded_le x
    cases hflow x <;> omega
  · intro x
    have := hb.pondering_le x
    cases hflow x <;> omega
  · intro x
    have hle := hb.served_le x
    have := hb.pondering_le x
    rw [hreadds]
    cases hflow x with
    | same hd hu hs hp => simpa only [hd, hu, hs, hp] using hle
    | added hd hu hs hp =>
      have hone : (if c'.monitor.queue.IsDirty x then 1 else 0) ≤ 1 := by split <;> omega
      rw [hs, hp]
      omega
    | taken hd hd' hu hs hp =>
      rw [if_pos hd] at hle
      rw [if_neg hd']
      omega
    | readded hr hd hu hs hp =>
      have hone : (if c'.monitor.queue.IsDirty x then 1 else 0) ≤ 1 := by split <;> omega
      omega
    | kept hr hd hu hs hp =>
      simp only [hd]
      omega
  · intro x
    have hadded := hb.added x
    have hpondering := hb.pondering_le x
    have hunadded := hb.unadded_le x
    cases hflow x with
    | same hd hu hs hp => simpa only [hd, hu, hs, hp] using hadded
    | added hd hu hs hp => exact fun _ => by omega
    | taken hd hd' hu hs hp => exact fun _ => hu ▸ hadded (.inl hd)
    | readded hr hd hu hs hp => exact fun _ => hu ▸ hadded (.inr (by omega))
    | kept hr hd hu hs hp => exact fun _ => hu ▸ hadded (.inr (by omega))
  · intro x
    have haccepted := hb.accepted x
    rw [hhome]
    cases hflow x with
    | taken hd hd' hu hsx hp =>
      obtain ⟨t, ht⟩ := hs.accepts (.inl hd)
      exact fun _ => by simp [ht]
    | same hd hu hsx hp => rwa [hsx]
    | added hd hu hsx hp => rwa [hsx]
    | readded hr hd hu hsx hp => rwa [hsx]
    | kept hr hd hu hsx hp => rwa [hsx]
  · intro x hx
    rw [hhome] at hx
    have hlive := hb.live x hx
    rw [hreadds]
    cases hflow x with
    | same hd hu hs hp => rwa [hd, hu, hs, hp]
    | added hd hu hs hp => exact fun _ hd' => absurd (hd.2 (.inl hx)) hd'
    | taken hd hd' hu hs hp => exact fun _ _ hp' => by omega
    | readded hr hd hu hs hp => exact fun _ hd' => absurd (hd.2 (.inl hx)) hd'
    | kept hr hd hu hs hp => exact fun _ _ _ => by omega

theorem Balanced.shutDown (hb : c.Balanced planned) :
    ({ c with monitor := c.monitor.shutDown.1 } : Crew α).Balanced planned := by
  have hdirty (x : α) : c.monitor.shutDown.1.queue.IsDirty x ↔ c.monitor.queue.IsDirty x := by
    rw [Monitor.shutDown_eq, WorkQueue.isDirty_shutDown]
  have hhome : c.monitor.shutDown.1.queue.home = c.monitor.queue.home := by
    rw [Monitor.shutDown_eq, WorkQueue.home_shutDown]
  constructor
  · exact hb.unadded_le
  · exact hb.pondering_le
  · intro x
    simp only [hdirty]
    exact hb.served_le x
  · intro x hx
    exact hb.added x (hx.imp (hdirty x).1 id)
  · intro x hx
    rw [hhome]
    exact hb.accepted x hx
  · intro x hx hu hd hp
    rw [hhome] at hx
    rw [hdirty] at hd
    exact hb.live x hx hu hd hp

theorem balanced_start (flavour : Flavour) (name : Option String) (readds : Nat)
    (producers : List (List α)) (consumers : Nat) :
    (start (.empty flavour name) readds producers consumers).Balanced producers.flatten.count := by
  have hclean (x : α) : ¬ (start (.empty flavour name) readds producers
      consumers).monitor.queue.IsDirty x := (WorkQueue.not_held_empty flavour name x).1
  have hnone (x : α) : (start (.empty flavour name) readds producers consumers).pondering x = 0 :=
    List.countP_replicate.trans (if_neg (by simp [Consumer.ponders]))
  have hserved (x : α) : (start (.empty flavour name) readds producers consumers).served x = 0 := rfl
  have hunadded (x : α) : (start (.empty flavour name) readds producers consumers).unadded x =
      producers.flatten.count x := rfl
  constructor
  · exact fun x => Nat.le_refl _
  · intro x
    rw [hnone]
    exact Nat.zero_le _
  · intro x
    rw [if_neg (hclean x), hserved, hunadded]
    omega
  · intro x hx
    rw [hserved] at hx
    exact absurd hx (not_or.2 ⟨hclean x, Nat.lt_irrefl 0⟩)
  · intro x hx
    rw [hserved] at hx
    exact absurd hx (Nat.lt_irrefl 0)
  · intro x _ hlt
    exact absurd hlt (Nat.lt_irrefl _)

end Crew

end TenantQueue.Queue
