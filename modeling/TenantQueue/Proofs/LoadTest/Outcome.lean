import TenantQueue.Proofs.LoadTest.Tokens
import Mathlib.Algebra.BigOperators.Group.Finset.Piecewise
import Mathlib.Algebra.Order.BigOperators.Group.Finset

/-! The outcome of a round does not depend on its schedule. The last item to be processed often enough
is counted by a worker that sees every item finished, so that somebody shuts the queue down and
nobody is left waiting. -/
namespace TenantQueue.LoadTest
open Queue Telemetry

namespace Profile

structure Valid (p : Profile) : Prop where
  ascending : p.items.Ascending
  nonempty : p.keys ≠ []
  tenants : ∀ key ∈ p.keys, ∃ t, tenantOf key = .ok t

theorem valid_of_ofList {items : List (String × Nat)} {p : Profile} (h : ofList items = .ok p) :
    p.Valid := by
  unfold ofList ofKeyed at h
  split at h
  · cases h
  · next he =>
    split at h
    · cases h
    · next hk =>
      cases h
      refine ⟨Keyed.ascending_ofList items, ?_, fun key hm => ?_⟩
      · simpa [keys, Keyed.keys, Keyed.isEmpty] using he
      · have hkey := List.findSome?_eq_none_iff.1 hk key hm
        unfold keyError? at hkey
        split at hkey
        · next parts hs => exact ⟨parts.1, by rw [tenantOf, hs]; rfl⟩
        · cases hkey

end Profile

namespace Round
variable {r r' : Round} {taken : List String} {issued : String → Nat}

def Ending (r : Round) : Prop :=
  r.monitor.queue.shuttingDown = true ∨
    ∃ (i : Nat) (key : String), r.workers[i]? = some (Worker.closing key)

theorem Step.ending (h : r.Step taken r') (hs : r.monitor.queue.Sound) (he : r.Ending) :
    r'.Ending := by
  cases he with
  | inl hd => exact .inl (h.shuttingDown hd)
  | inr hc =>
    obtain ⟨i, key, hi⟩ := hc
    cases h.workers_cases hs with
    | inl hw => exact .inr ⟨i, key, hw ▸ hi⟩
    | inr hp =>
      obtain ⟨j, w, w', hp⟩ := hp
      by_cases hij : j = i
      · subst hij
        exact .inl (hp.closed key (Option.some.inj (hp.was.symm.trans hi)))
      · refine .inr ⟨i, key, ?_⟩
        rwa [hp.set, List.getElem?_set_ne hij]

/-- A round begins to end in the step in which a worker sees every item finished. -/
theorem Step.ending_cases (h : r.Step taken r') (hs : r.monitor.queue.Sound) (he : r'.Ending) :
    r.Ending ∨ r'.finished = true := by
  cases he with
  | inl hd =>
    refine .inl ?_
    cases h.queue_cases with
    | inl hq =>
      obtain ⟨calls, hn, hq⟩ := hq
      rw [hq, WorkQueue.shuttingDown_run hn] at hd
      exact .inl hd
    | inr hq => exact .inr hq.1
  | inr hc =>
    obtain ⟨i, key, hi⟩ := hc
    cases h.workers_cases hs with
    | inl hw => exact .inl (.inr ⟨i, key, hw ▸ hi⟩)
    | inr hp =>
      obtain ⟨j, w, w', hp⟩ := hp
      rw [hp.set] at hi
      by_cases hij : j = i
      · subst hij
        obtain ⟨hj, -⟩ := List.getElem?_eq_some_iff.1 hp.was
        rw [List.getElem?_set_self hj] at hi
        exact .inr (hp.closing key (Option.some.inj hi))
      · rw [List.getElem?_set_ne hij] at hi
        exact .inl (.inr ⟨i, key, hi⟩)

/-- The worker that counts the last item sees that every item is finished. -/
theorem Step.finished_cases (h : r.Step taken r') (hf : r'.finished = true) :
    r'.counts = r.counts ∨ r'.Ending := by
  cases h with
  | @finds i key hw =>
    obtain ⟨hi, -⟩ := List.getElem?_eq_some_iff.1 hw
    exact .inr (.inr ⟨i, key, List.getElem?_set_self hi⟩)
  | repeats hw hn => exact absurd (hf.symm.trans hn) (by simp)
  | completes hw hn => exact absurd (hf.symm.trans hn) (by simp)
  | _ => exact .inl rfl

structure Punctual (r : Round) : Prop where
  early : r.Ending → ∀ key ∈ r.profile.keys, r.cycles ≤ r.count key
  late : (∃ key, 0 < r.count key) → r.finished = true → r.Ending

theorem Step.punctual (h : r.Step taken r') (hs : r.monitor.queue.Sound)
    (hb : r.Balanced issued) (hb' : r'.Balanced issued) (hp : r.Punctual) : r'.Punctual where
  early he key hk := by
    cases h.ending_cases hs he with
    | inl he =>
      rw [h.profile_eq] at hk
      rw [h.cycles_eq]
      exact (hp.early he key hk).trans (h.count_le hb.ascending key)
    | inr hf =>
      exact (finished_iff hb'.ascending).1 hf key (hb'.listed key hk)
  late := by
    rintro ⟨key, hk⟩ hf
    cases h.finished_cases hf with
    | inl hc =>
      have hk : 0 < r.count key := by rwa [count, ← hc]
      have hf : r.finished = true := by rwa [finished, ← hc, ← h.cycles_eq]
      exact h.ending hs (hp.late ⟨key, hk⟩ hf)
    | inr he =>
      exact he

/-- Someone can go on while a worker has not ended: where every other worker is parked, nothing waits
or is being worked on, so that every item is finished and someone is shutting the queue down. -/
theorem Staffed.goes_on (hs : r.Staffed) (hb : r.Balanced issued) (hp : r.Punctual)
    (hk : r.profile.keys ≠ []) (hu : r.unadded = []) (hn : r.monitor.notified = 0)
    (ho : r.monitor.owed = 0) (hw : ∃ w ∈ r.workers, w ≠ .ended) :
    ∃ w ∈ r.workers, w ≠ .ended ∧ w ≠ .parked := by
  by_contra hstuck
  have hall (w : Worker) (hm : w ∈ r.workers) : w = .ended ∨ w = .parked := by
    by_contra hne
    exact hstuck ⟨w, hm, not_or.1 hne⟩
  have hidle {P : Worker → Bool} (h₁ : P .ended = false) (h₂ : P .parked = false) :
      r.workers.countP P = 0 := by
    refine List.countP_eq_zero.2 fun w hm => ?_
    cases hall w hm with
    | inl e =>
      subst e
      simp [h₁]
    | inr e =>
      subst e
      simp [h₂]
  have hparked : .parked ∈ r.workers := by
    obtain ⟨w, hm, hne⟩ := hw
    exact (hall w hm).resolve_left hne ▸ hm
  obtain ⟨hopen, hsize⟩ := hs.asleep hn ho hparked
  have hclean (key : String) : ¬ r.monitor.queue.IsDirty key := by
    have hfree : ¬ r.monitor.queue.IsProcessing key := by
      have hheld := hs.held key
      rw [hidle rfl rfl] at hheld
      intro hproc
      rw [if_pos hproc] at hheld
      omega
    exact fun hd => hs.awake.sound.size_eq_zero.1 hsize key ⟨hd, hfree⟩
  have hspent (key : String) : r.tokens key = 0 := by
    rw [tokens, if_neg (hclean key), hidle rfl rfl, hu]
    rfl
  have hdone (key : String) (hm : key ∈ r.counts.keys) : r.goal ≤ r.count key := by
    by_contra hlt
    have := hb.live key (hb.known key hm) (by omega)
    have := hspent key
    omega
  have hfinished : r.finished = true :=
    (finished_iff hb.ascending).2 fun key hm => (Nat.le_max_left ..).trans (hdone key hm)
  obtain ⟨key, hm⟩ := List.exists_mem_of_ne_nil _ hk
  have hcount : 0 < r.count key :=
    Nat.lt_of_lt_of_le (Nat.le_max_right r.cycles 1) (hdone key (hb.listed key hm))
  cases hp.late ⟨key, hcount⟩ hfinished with
  | inl hd =>
    simp [hd] at hopen
  | inr h =>
    obtain ⟨i, key, hi⟩ := h
    rcases hall _ (List.mem_of_getElem? hi) with h | h <;> cases h

section Start
variable {queue : WorkQueue String} {p : Profile}

theorem count_start (queue : WorkQueue String) (p : Profile) (cycles workers : Nat) (key : String) :
    (start queue p cycles workers).count key = 0 := by
  rw [count]
  cases hn : (start queue p cycles workers).counts.get? key with
  | none => rfl
  | some n =>
    obtain ⟨k, -, he⟩ := List.mem_map.1 (Keyed.mem_of_get? hn)
    cases he
    rfl

theorem tokens_start (queue : WorkQueue String) (p : Profile) (cycles workers : Nat)
    (key : String) :
    (start queue p cycles workers).tokens key =
      (if queue.IsDirty key then 1 else 0) + p.keys.count key := by
  have hidle : (start queue p cycles workers).workers.countP (Worker.carries key) = 0 :=
    List.countP_replicate.trans (if_neg (by simp [Worker.carries]))
  rw [tokens, hidle]
  rfl

theorem keys_start (queue : WorkQueue String) (p : Profile) (cycles workers : Nat) :
    (start queue p cycles workers).counts.keys = p.keys := by
  simp [start, Keyed.keys, Function.comp_def]

theorem home_of_tenant {key t : String} (h : tenantOf key = .ok t) (flavour : Flavour) :
    ∃ t, flavour.home key = some t := by
  cases flavour with
  | fair => exact ⟨t, congrArg Except.toOption h⟩
  | fifo => exact ⟨"", rfl⟩

theorem balanced_start (hs : queue.Sound) (hp : p.Valid) (cycles workers : Nat) :
    (start queue p cycles workers).Balanced (start queue p cycles workers).tokens where
  accepted key hk := by
    rw [tokens_start] at hk
    by_cases hd : queue.IsDirty key
    · exact hs.accepts (.inl hd)
    · rw [if_neg hd, Nat.zero_add] at hk
      obtain ⟨t, ht⟩ := hp.tenants key (List.count_pos_iff.1 hk)
      exact home_of_tenant ht _
  ascending := by
    rw [Keyed.Ascending, keys_start]
    exact hp.ascending
  known key hk := by
    rw [keys_start] at hk
    have := List.count_pos_iff.2 hk
    rw [tokens_start]
    omega
  listed key hk := by rwa [keys_start]
  bound key := by rw [count_start, Nat.zero_max]
  live key hk _ := hk

theorem punctual_start (hopen : queue.shuttingDown = false) (p : Profile) (cycles workers : Nat) :
    (start queue p cycles workers).Punctual where
  early he := by
    cases he with
    | inl hd =>
      exact absurd (hopen.symm.trans hd) (by simp)
    | inr h =>
      obtain ⟨i, key, hi⟩ := h
      simp [start, List.getElem?_replicate] at hi
  late := by
    rintro ⟨key, hk⟩
    rw [count_start] at hk
    exact absurd hk (Nat.lt_irrefl 0)

end Start

structure Reached (p : Profile) (cycles : Nat) (issued : String → Nat) (r : Round) : Prop where
  staffed : r.Staffed
  balanced : r.Balanced issued
  punctual : r.Punctual
  profile_eq : r.profile = p
  cycles_eq : r.cycles = cycles

variable {p : Profile} {cycles : Nat}

theorem Step.reached (h : r.Step taken r') (hr : r.Reached p cycles issued) :
    r'.Reached p cycles issued := by
  have hb := h.balanced hr.staffed.awake.sound hr.balanced
  exact ⟨h.staffed hr.staffed, hb, h.punctual hr.staffed.awake.sound hr.balanced hb hr.punctual,
    h.profile_eq.trans hr.profile_eq, h.cycles_eq.trans hr.cycles_eq⟩

theorem reached_run {queue : WorkQueue String} (hs : queue.Sound)
    (hopen : queue.shuttingDown = false) (hnone : ∀ key, ¬ queue.IsProcessing key) (hp : p.Valid)
    (cycles workers : Nat) (turns : List Turn) :
    ((start queue p cycles workers).run turns).Reached p cycles
      (start queue p cycles workers).tokens :=
  run_induction (fun _ _ _ hr h => h.reached hr) turns
    ⟨staffed_start hs hnone p cycles workers, balanced_start hs hp cycles workers,
      punctual_start hopen p cycles workers, rfl, rfl⟩

/-- A round that is over was ended by a worker that saw every item finished. -/
theorem Reached.of_isOver (hr : r.Reached p cycles issued) (ho : r.isOver = true) :
    r.monitor.queue.shuttingDown = true ∧ ∀ key ∈ p.keys, cycles ≤ r.count key := by
  have hd := hr.staffed.shuttingDown_of_isOver ho
  refine ⟨hd, fun key hk => ?_⟩
  rw [← hr.profile_eq] at hk
  rw [← hr.cycles_eq]
  exact hr.punctual.early (.inl hd) key hk

section Bounds
variable {K S : Finset String}
  (hissued : ∀ key, issued key = (if key ∈ K then 1 else 0) + if key ∈ S then 1 else 0)
include hissued

/-- An item is handed out once per cycle, and once more if it was due twice. -/
theorem Reached.begun_le (hr : r.Reached p cycles issued) (hcycles : 1 ≤ cycles) (key : String) :
    r.begun key ≤ (if key ∈ K ∪ S then cycles else 0) + if key ∈ K ∩ S then 1 else 0 := by
  have hgoal : r.goal = cycles := by
    rw [goal, hr.cycles_eq]
    omega
  have hle := hr.balanced.begun_le key
  have hzero : issued key = 0 → r.begun key = 0 := hr.balanced.begun_eq_zero
  rw [hissued] at hle hzero
  simp only [Finset.mem_union, Finset.mem_inter]
  by_cases hK : key ∈ K
  · simp only [hK, if_true, true_or, true_and] at hle ⊢
    omega
  · by_cases hS : key ∈ S
    · simp only [hK, hS, if_true, if_false, or_true, false_and] at hle ⊢
      omega
    · rw [hzero (by rw [if_neg hK, if_neg hS])]
      exact Nat.zero_le _

/-- At its end a round has counted each key of the profile as often as was asked for. -/
theorem Reached.counts_of_isOver (hr : r.Reached p cycles issued) (hcycles : 1 ≤ cycles)
    (ho : r.isOver = true) {key : String} (hk : key ∈ p.keys) (hK : key ∈ K) :
    ∃ n, r.counts.get? key = some n ∧ cycles ≤ n ∧ n ≤ cycles + if key ∈ S then 1 else 0 := by
  have hlisted := hr.balanced.listed key (hr.profile_eq ▸ hk)
  obtain ⟨n, hn⟩ := hr.balanced.ascending.exists_get? hlisted
  have hcount := count_of_get? hn
  have hfull := (hr.of_isOver ho).2 key hk
  have hle : r.count key ≤ r.begun key := Nat.le_add_right ..
  have hbound := hr.begun_le hissued hcycles key
  simp only [Finset.mem_union, Finset.mem_inter, hK, true_or, true_and, if_true] at hbound
  exact ⟨n, hn, by omega, by omega⟩

/-- Only keys of the profile are counted if no other was waiting. -/
theorem Reached.counts_eq_const (hr : r.Reached p cycles issued) (hp : p.Valid)
    (hK : ∀ key, key ∈ K ↔ key ∈ p.keys) (hS : S = ∅) {n : Nat}
    (hn : ∀ key ∈ K, r.counts.get? key = some n) : r.counts = ⟨p.keys.map (·, n)⟩ := by
  refine hr.balanced.ascending.eq_const hp.ascending (fun key => ⟨fun hk => ?_, fun hk => ?_⟩)
    fun key hk => hn key ((hK key).2 hk)
  · have hpos := hr.balanced.known key hk
    rw [hissued, hS, if_neg (Finset.notMem_empty key), Nat.add_zero] at hpos
    by_contra hnot
    rw [if_neg fun h => hnot ((hK key).1 h)] at hpos
    omega
  · exact hr.balanced.listed key (hr.profile_eq ▸ hk)

end Bounds

section Start
variable {queue : WorkQueue String}

/-- A key is due at first if it is waiting, and if it is in the profile. -/
theorem tokens_start_eq (hs : queue.Sound) (hnone : ∀ key, ¬ queue.IsProcessing key)
    (hp : p.Valid) (cycles workers : Nat) (key : String) :
    (start queue p cycles workers).tokens key =
      (if key ∈ p.keys.toFinset then 1 else 0) + if key ∈ queue.ready.toFinset then 1 else 0 := by
  have hwaits : queue.IsDirty key ↔ key ∈ queue.ready := by
    rw [hs.mem_ready]
    exact ⟨fun hd => ⟨hd, hnone key⟩, And.left⟩
  have hnodup : p.keys.Nodup := hp.ascending.nodup
  rw [tokens_start, hnodup.count, Nat.add_comm]
  simp only [hwaits, List.mem_toFinset]

end Start

end Round

end TenantQueue.LoadTest
