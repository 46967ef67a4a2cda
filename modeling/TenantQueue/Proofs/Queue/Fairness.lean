import TenantQueue.Proofs.Queue.Calls
import Mathlib.Algebra.Order.BigOperators.Group.List
import Mathlib.Algebra.Order.Group.Nat

/-! How often other tenants are served before an item that waits. An item at index `p` of its
tenant's queue sees that tenant served `p` times and every other at most once more than that: once
for each item before it, and once on the way to the tenant. New tenants and refills change nothing,
since a tenant that was served comes last in the order from then on. -/
namespace TenantQueue.Queue
variable {α : Type}

namespace Rota

/-- The search may come to `b` before it comes to `a`. -/
def Ahead (r : Rota α) (a b : String) : Prop :=
  b ∉ r.keys ∨ r.resting.Precedes (r.keys.idxOf b) (r.keys.idxOf a)

instance (r : Rota α) (a b : String) : Decidable (r.Ahead a b) :=
  inferInstanceAs (Decidable (_ ∨ _))

/-- How often a tenant `b` can be served while the item at index `p` of tenant `a` waits. -/
def allowance (r : Rota α) (a : String) (p : Nat) (b : String) : Nat :=
  if b = a then p else if r.Ahead a b then p + 1 else p

variable {r r' : Rota α} {a b t : String} {p : Nat}

theorem allowance_self (r : Rota α) (a : String) (p : Nat) : r.allowance a p a = p := if_pos rfl

theorem allowance_le (r : Rota α) (a : String) (p : Nat) (b : String) :
    r.allowance a p b ≤ p + 1 := by
  unfold allowance
  split
  · omega
  · split <;> omega

theorem le_allowance (r : Rota α) (a : String) (p : Nat) (b : String) :
    p ≤ r.allowance a p b := by
  unfold allowance
  split
  · omega
  · split <;> omega

theorem allowance_mono (p : Nat) (h : r'.Ahead a b → r.Ahead a b) :
    r'.allowance a p b ≤ r.allowance a p b := by
  by_cases hb : b = a
  · rw [hb, allowance_self, allowance_self]
  · by_cases hr : r'.Ahead a b
    · simp [allowance, hb, hr, h hr]
    · rw [allowance, if_neg hb, if_neg hr]
      exact le_allowance r a p b

/-- Tenants that come in last do not get ahead of those in front of them. -/
theorem Ahead.of_prefix (hk : r.keys <+: r'.keys) (hc : r'.resting = r.resting)
    (ha : a ∈ r.keys) (h : r'.Ahead a b) : r.Ahead a b := by
  by_cases hb : b ∈ r.keys
  · obtain ⟨later, hk⟩ := hk
    rw [Ahead, ← hk, hc, List.idxOf_append_of_mem ha, List.idxOf_append_of_mem hb] at h
    exact h.imp (fun hn => absurd (List.mem_append_left _ hb) hn) id
  · exact .inl hb

variable {home : α → Option String}

theorem mem_keys_of_waiting {x : α} (hx : x ∈ (r.part a).waiting) : a ∈ r.keys := by
  unfold part at hx
  cases hl : r.tenants.lookup a with
  | none => simp [hl] at hx
  | some items =>
    obtain ⟨front, back, he, -⟩ := List.lookup_eq_some_iff.1 hl
    simp [keys, he]

theorem idxOf_eq (h : r.Sound home) {i : Nat} {items : DedupQueue α}
    (hi : r.tenants[i]? = some (t, items)) : r.keys.idxOf t = i := by
  have hk : r.keys[i]? = some t := by simp [keys, hi]
  obtain ⟨hl, rfl⟩ := List.getElem?_eq_some_iff.1 hk
  exact List.Nodup.idxOf_getElem h.keys_nodup i hl

theorem getElem?_idxOf (h : r.Sound home) (ha : a ∈ r.keys) :
    r.tenants[r.keys.idxOf a]? = some (a, r.part a) := by
  obtain ⟨e, he, rfl⟩ := List.mem_map.1 ha
  obtain ⟨i, hi⟩ := List.mem_iff_getElem?.1 he
  rw [idxOf_eq h hi, hi, part_of_mem h he]

section Calls
variable [DecidableEq α] {x y : α} {i : Nat} {rest : DedupQueue α}

theorem Serving.keys_eq (hs : r.Serving y r' i t rest) : r'.keys = r.keys := by
  have ht : t ∈ r.tenants.map Prod.fst := List.mem_map_of_mem (List.mem_of_getElem? hs.tenant)
  rw [hs.left, keys, withPart, Ring.keys_assign, if_pos ht, keys]

theorem Serving.resting_eq (hs : r.Serving y r' i t rest) : r'.resting = .slot i := by
  rw [hs.left]
  rfl

/-- A slot that has something waiting is not passed over. -/
theorem Serving.precedes_slot (h : r.Sound home) (hs : r.Serving y r' i t rest) {j : Nat}
    {e : String × DedupQueue α} (hj : r.tenants[j]? = some e) (hw : e.2.waiting ≠ [])
    (hji : j ≠ i) : r.resting.Precedes i j := by
  obtain ⟨front, back, ho, hfront⟩ := hs.first
  have hp : (front ++ i :: back).Pairwise r.resting.Precedes :=
    ho ▸ Position.revolution_pairwise r.tenants.length r.resting
  have hmem : j ∈ front ++ i :: back := by
    rw [← ho]
    exact (Position.mem_revolution h.within _).2 (List.getElem?_eq_some_iff.1 hj).1
  rw [List.mem_append, List.mem_cons] at hmem
  rcases hmem with hm | hm | hm
  · have hn := hfront j hm
    simp [offer, hj, DedupQueue.get?_eq_none] at hn
    exact absurd hn hw
  · exact absurd hm hji
  · exact (List.pairwise_cons.1 (List.pairwise_append.1 hp).2.1).1 j hm

/-- A tenant that has something waiting is not passed over. -/
theorem Serving.precedes (h : r.Sound home) (hs : r.Serving y r' i t rest)
    (hx : x ∈ (r.part a).waiting) (hat : a ≠ t) :
    r.resting.Precedes i (r.keys.idxOf a) := by
  have ha := getElem?_idxOf h (mem_keys_of_waiting hx)
  refine hs.precedes_slot h ha (List.ne_nil_of_mem hx) fun hi => ?_
  rw [hi, hs.tenant] at ha
  cases ha
  exact hat rfl

/-- Serving a tenant uses up one of its turns: the cursor comes to rest on it, so that it was ahead
of the others that wait and is behind them from now on. -/
theorem Serving.allowance (h : r.Sound home) (hs : r.Serving y r' i t rest)
    (hx : (r.part a).waiting[p]? = some x) (hne : y ≠ x) :
    ∃ p', (r'.part a).waiting[p']? = some x ∧
      ∀ b, (if b = t then 1 else 0) + r'.allowance a p' b ≤ r.allowance a p b := by
  have hpart : r'.part a = if a = t then rest else r.part a := by rw [hs.left, part_withPart]
  by_cases hat : a = t
  · subst hat
    rw [(DedupQueue.get?_eq_some hs.taken).1] at hx
    cases p with
    | zero => exact absurd (by simpa using hx) hne
    | succ p =>
      refine ⟨p, by simpa [hpart] using hx, fun b => ?_⟩
      by_cases hb : b = a
      · rw [hb, allowance_self, allowance_self, if_pos rfl]
        omega
      · have := allowance_le r' a p b
        have := le_allowance r a (p + 1) b
        rw [if_neg hb]
        omega
  · have hw := hs.precedes h (List.mem_of_getElem? hx) hat
    have hi := idxOf_eq h hs.tenant
    refine ⟨p, by rwa [hpart, if_neg hat], fun b => ?_⟩
    by_cases hb : b = t
    · subst hb
      have hbefore : r.Ahead a b := .inr (by rwa [hi])
      have hafter : ¬ r'.Ahead a b := by
        rw [Ahead, hs.keys_eq, hs.resting_eq, hi, Position.Precedes, if_pos (Nat.le_refl i)]
        have hk : b ∈ r.keys := List.mem_map_of_mem (List.mem_of_getElem? hs.tenant)
        rintro (hn | ⟨h₁, h₂⟩)
        · exact hn hk
        · omega
      simp only [Rota.allowance, if_neg (Ne.symm hat), if_neg hafter, if_pos hbefore, if_true]
      omega
    · rw [if_neg hb, Nat.zero_add]
      refine allowance_mono p fun hb' => ?_
      rw [Ahead, hs.keys_eq, hs.resting_eq] at hb'
      exact hb'.imp_right hw.of_served

/-- Only a call that hands an item out moves the cursor. -/
theorem Sound.resting_after (h : r.Sound home) (call : Call α)
    (hg : call = .get → ∀ y, r.get.1 ≠ .item y) : (r.after home call).resting = r.resting := by
  cases call with
  | add y =>
    simp only [Rota.after]
    split <;> rfl
  | get => simp only [Rota.after, get_eq_self h (hg rfl)]
  | done y =>
    simp only [Rota.after]
    split
    · next t _ =>
      cases r.finish_snd t y with
      | inl h =>
        obtain ⟨e, -⟩ := h
        rw [e]
      | inr e =>
        rw [e]
        rfl
    · rfl
  | shutDown => rfl

/-- Every other call leaves an item where it waits, and takes no turn. -/
theorem Sound.keeps_place (h : r.Sound home) (call : Call α)
    (hg : call = .get → ∀ y, r.get.1 ≠ .item y) (hx : (r.part a).waiting[p]? = some x) :
    ((r.after home call).part a).waiting[p]? = some x ∧
      ∀ b, (r.after home call).allowance a p b ≤ r.allowance a p b := by
  have hfront {later : List α} : ((r.part a).waiting ++ later)[p]? = some x := by
    rw [List.getElem?_append_left (List.getElem?_eq_some_iff.1 hx).1, hx]
  have hk := mem_keys_of_waiting (List.mem_of_getElem? hx)
  refine ⟨?_, fun b => allowance_mono p
    (Ahead.of_prefix (keys_after h call) (h.resting_after call hg) hk)⟩
  cases call with
  | add y =>
    simp only [Rota.after]
    split
    · next t _ =>
      rw [put_eq, part_withPart]
      split
      · next e =>
        subst e
        rw [DedupQueue.waiting_add]
        split
        · exact hx
        · exact hfront
      · exact hx
    · exact hx
  | get =>
    simp only [Rota.after, get_eq_self h (hg rfl)]
    exact hx
  | done y =>
    simp only [Rota.after]
    split
    · next t _ =>
      rw [part_finish]
      split
      · next e =>
        subst e
        rw [DedupQueue.waiting_done]
        split
        · exact hfront
        · exact hx
      · exact hx
    · exact hx
  | shutDown => exact hx

end Calls

end Rota

section Histories
variable [WorkItem α]

def servings (t : String) (h : List (Occurrence α)) : Nat :=
  h.countP fun
    | .handedOut x => Flavour.fair.home x == some t
    | _ => false

omit [WorkItem α] in
def handOuts (h : List (Occurrence α)) : Nat :=
  h.countP fun
    | .handedOut _ => true
    | _ => false

theorem servings_append (t : String) (h h' : List (Occurrence α)) :
    servings t (h ++ h') = servings t h + servings t h' := List.countP_append

omit [WorkItem α] in
theorem handOuts_append (h h' : List (Occurrence α)) :
    handOuts (h ++ h') = handOuts h + handOuts h' := List.countP_append

theorem servings_eq_zero {t : String} {h : List (Occurrence α)} (hn : ∀ x, .handedOut x ∉ h) :
    servings t h = 0 := by
  refine List.countP_eq_zero.2 fun o ho => ?_
  cases o with
  | handedOut x => exact absurd ho (hn x)
  | added x => exact Bool.false_ne_true
  | returned x => exact Bool.false_ne_true

theorem servings_handedOut {x : α} {s : String} (hx : Flavour.fair.home x = some s) (t : String) :
    servings t [.handedOut x] = if t = s then 1 else 0 := by
  simp only [servings, List.countP_singleton, hx]
  by_cases ht : t = s
  · simp [ht]
  · simp [ht, Ne.symm ht]

/-- Each item that was handed out was one of some tenant's. -/
theorem handOuts_le_sum (ts : List String) (h : List (Occurrence α))
    (ht : ∀ x, .handedOut x ∈ h → ∃ t ∈ ts, Flavour.fair.home x = some t) :
    handOuts h ≤ (ts.map (servings · h)).sum := by
  induction h with
  | nil => exact Nat.zero_le _
  | cons o h ih =>
    have ih := ih fun x hx => ht x (List.mem_cons_of_mem _ hx)
    have hsum : (ts.map (servings · (o :: h))).sum =
        (ts.map (servings · [o])).sum + (ts.map (servings · h)).sum := by
      rw [← List.sum_map_add]
      exact congrArg List.sum (List.map_congr_left fun t _ => servings_append t [o] h)
    have hone : handOuts [o] ≤ (ts.map (servings · [o])).sum := by
      cases o with
      | handedOut x =>
        obtain ⟨t, hm, hx⟩ := ht x List.mem_cons_self
        have hle := List.le_sum_of_mem (List.mem_map_of_mem (f := (servings · [.handedOut x])) hm)
        rw [servings_handedOut hx, if_pos rfl] at hle
        exact hle
      | added x => exact Nat.zero_le _
      | returned x => exact Nat.zero_le _
    have hcons : handOuts (o :: h) = handOuts [o] + handOuts h := handOuts_append [o] h
    omega

end Histories

namespace WorkQueue

theorem Implements.tenantCount {q : FairQueue α} {r : Rota α}
    (h : (WorkQueue.fair q).Implements r) : q.tenantCount = r.keys.length := by
  cases h
  simp [FairQueue.tenantCount, Rota.toFair, Ring.size_ofEntries, Rota.keys]

variable [DecidableEq α] [WorkItem α] {q : WorkQueue α} {r : Rota α} {a : String} {x : α} {p : Nat}

omit [WorkItem α] in
theorem handedOut_mem_occurs {call : Call α} {y : α} :
    .handedOut y ∈ q.occurs call ↔ call = .get ∧ q.get.1 = .item y := by
  cases call with
  | get => cases hg : q.get.1 <;> simp [occurs, hg, eq_comm]
  | _ => simp [occurs]

/-- A call hands an item out as the rota serves it, or hands nothing out. -/
theorem Implements.served_or_quiet (hi : q.Implements r) (hr : r.Sound q.home) (call : Call α) :
    (∃ y i t rest, call = .get ∧ q.occurs call = [.handedOut y] ∧
      r.Serving y (r.after q.home call) i t rest ∧ q.home y = some t) ∨
      (call = .get → ∀ y, r.get.1 ≠ .item y) ∧ ∀ y, .handedOut y ∉ q.occurs call := by
  by_cases hg : call = .get ∧ ∃ y, q.get.1 = .item y
  · obtain ⟨rfl, y, hg⟩ := hg
    obtain ⟨i, t, rest, hs, hy⟩ := hi.serving hr hg
    exact .inl ⟨y, i, t, rest, rfl, by simp [occurs, hg], hs, hy⟩
  · refine .inr ⟨fun hc y hy => hg ⟨hc, y, (hi.get hr).1.trans hy⟩, fun y hy => ?_⟩
    obtain ⟨hc, hy⟩ := handedOut_mem_occurs.1 hy
    exact hg ⟨hc, y, hy⟩

theorem servings_after (hf : q.flavour = .fair) (hi : q.Implements r) (hr : r.Sound q.home)
    (call : Call α) (hx : (r.part a).waiting[p]? = some x) (hn : .handedOut x ∉ q.occurs call) :
    ∃ p', ((r.after q.home call).part a).waiting[p']? = some x ∧
      ∀ b, servings b (q.occurs call) + (r.after q.home call).allowance a p' b ≤
        r.allowance a p b := by
  cases hi.served_or_quiet hr call with
  | inl h =>
    obtain ⟨y, i, t, rest, -, ho, hs, hy⟩ := h
    have hne : y ≠ x := by
      rintro rfl
      simp [ho] at hn
    have hy : Flavour.fair.home y = some t := hf ▸ hy
    obtain ⟨p', hp', hb⟩ := hs.allowance hr hx hne
    refine ⟨p', hp', fun b => ?_⟩
    rw [ho, servings_handedOut hy]
    exact hb b
  | inr h =>
    obtain ⟨hquiet, hnone⟩ := h
    obtain ⟨hp, hb⟩ := hr.keeps_place call hquiet hx
    refine ⟨p, hp, fun b => ?_⟩
    rw [servings_eq_zero hnone, Nat.zero_add]
    exact hb b

/-- Each serving lowers the allowance by one, so that a run never serves more. -/
theorem servings_run (hf : q.flavour = .fair) (hi : q.Implements r) (hr : r.Sound q.home)
    (calls : List (Call α)) (hx : (r.part a).waiting[p]? = some x)
    (hn : .handedOut x ∉ q.history calls) (b : String) :
    servings b (q.history calls) ≤ r.allowance a p b := by
  induction calls generalizing q r p with
  | nil => exact Nat.zero_le _
  | cons call calls ih =>
    rw [history, List.mem_append, not_or] at hn
    obtain ⟨p', hp', hb⟩ := servings_after hf hi hr call hx hn.1
    have hlater := ih ((flavour_after q call).trans hf) (hi.after hr call)
      (by rw [home_after]; exact hr.after call) hp' hn.2
    have := hb b
    rw [history, servings_append]
    omega

/-- What was handed out belongs to a tenant that the queue has from then on. -/
theorem home_of_handedOut (hi : q.Implements r) (hr : r.Sound q.home) (calls : List (Call α))
    {y : α} (hy : .handedOut y ∈ q.history calls) :
    ∃ t ∈ (r.run q.home calls).keys, q.home y = some t := by
  induction calls generalizing q r with
  | nil => cases hy
  | cons call calls ih =>
    have hr' : (r.after q.home call).Sound (q.after call).home := by
      rw [home_after]
      exact hr.after call
    cases List.mem_append.1 hy with
    | inl hy =>
      obtain ⟨rfl, hg⟩ := handedOut_mem_occurs.1 hy
      obtain ⟨i, t, rest, hs, hy⟩ := hi.serving hr hg
      have ht : t ∈ r.keys := List.mem_map_of_mem (List.mem_of_getElem? hs.tenant)
      exact ⟨t, (Rota.keys_run hr (.get :: calls)).mem ht, hy⟩
    | inr hy =>
      have h := ih (hi.after hr call) hr' hy
      rwa [home_after] at h

/-- However long the queues of other tenants are, however often they are refilled and whatever
tenants come in, an item with `p` others of its tenant before it is handed out before its tenant was
served more than `p` times or any other more than `p + 1` times. -/
theorem fair_share (name : Option String) (before calls : List (Call α)) {q : WorkQueue α}
    {a : String} {items : DedupQueue α} {p : Nat} {x : α}
    (hq : q = run before (.empty .fair name))
    (ha : (a, items) ∈ q.parts) (hx : items.waiting[p]? = some x)
    (hn : .handedOut x ∉ q.history calls) :
    servings a (q.history calls) ≤ p ∧
      (∀ b, b ≠ a → servings b (q.history calls) ≤ p + 1) ∧
      ∃ q' : FairQueue α, q.run calls = .fair q' ∧
        handOuts (q.history calls) + 1 ≤ (p + 1) * q'.tenantCount := by
  obtain ⟨r, hi, hr⟩ : q.Sound := hq ▸ (sound_empty .fair name).run before
  have hf : q.flavour = .fair := by rw [hq, flavour_run, flavour_empty]
  have hitems : r.part a = items := Rota.part_of_mem hr (hi.parts_eq ▸ ha)
  have hserve := servings_run hf hi hr calls (hitems ▸ hx) hn
  have hself : servings a (q.history calls) ≤ p := Rota.allowance_self r a p ▸ hserve a
  have hother (b : String) : servings b (q.history calls) ≤ p + 1 :=
    (hserve b).trans (Rota.allowance_le r a p b)
  refine ⟨hself, fun b _ => hother b, ?_⟩
  have hi' := hi.run hr calls
  have hf' : (q.run calls).flavour = .fair := (flavour_run calls q).trans hf
  have hmem : a ∈ (r.run q.home calls).keys :=
    (Rota.keys_run hr calls).mem (Rota.mem_keys_of_waiting (List.mem_of_getElem? (hitems ▸ hx)))
  have hsum := handOuts_le_sum (r.run q.home calls).keys (q.history calls)
    fun y hy => hf ▸ home_of_handedOut hi hr calls hy
  have hlt := List.sum_lt_sum (servings · (q.history calls)) (fun _ => p + 1)
    (fun b _ => hother b) ⟨a, hmem, Nat.lt_succ_of_le hself⟩
  rw [List.map_const', List.sum_replicate_nat, Nat.mul_comm] at hlt
  cases hq' : q.run calls with
  | fair q' =>
    rw [hq'] at hi'
    refine ⟨q', rfl, ?_⟩
    rw [hi'.tenantCount]
    omega
  | fifo q' =>
    rw [hq'] at hf'
    cases hf'

/-- A tenant that comes in meanwhile is served once before the second item of `b`. -/
theorem fair_share_newcomer :
    let before : List (Call String) := [.add "a/1", .add "b/1", .add "b/2", .add "a/2"]
    let calls : List (Call String) := [.get, .get, .add "c/1", .get, .get]
    let q : WorkQueue String := run before (.empty .fair)
    let items : DedupQueue String := ⟨["b/1", "b/2"], ["b/2", "b/1"], []⟩
    (("b", items) ∈ q.parts ∧ items.waiting[1]? = some "b/2" ∧
      .handedOut "b/2" ∉ q.history calls) ∧
      servings "b" (q.history calls) ≤ 1 ∧
      (∀ b, b ≠ "b" → servings b (q.history calls) ≤ 2) ∧
      ∃ q' : FairQueue String, q.run calls = .fair q' ∧
        handOuts (q.history calls) + 1 ≤ 2 * q'.tenantCount := by
  intro before calls q items
  have ha : ("b", items) ∈ q.parts := by decide
  have hx : items.waiting[1]? = some "b/2" := by decide
  have hn : .handedOut "b/2" ∉ q.history calls := by decide
  exact ⟨⟨ha, hx, hn⟩, fair_share none before calls rfl ha hx hn⟩

end WorkQueue

end TenantQueue.Queue
