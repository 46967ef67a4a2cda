import TenantQueue.Proofs.Keyed
import TenantQueue.Proofs.LoadTest.Staff

/-! One token for each time that an item is due: as a dirty item of the queue, in the hands of a
worker, or among the keys that are still to be added. A token is neither made nor lost before its
item was processed often enough; tokens of one item merge where they meet in the queue. -/
namespace TenantQueue.LoadTest
open Queue Telemetry

def Worker.carries (key : String) : Worker → Bool
  | .working k _ => k == key
  | .counting k => k == key
  | .renewing k => k == key
  | _ => false

def Worker.handles (key : String) : Worker → Bool
  | .working k _ => k == key
  | .counting k => k == key
  | _ => false

namespace Round

def tokens (r : Round) (key : String) : Nat :=
  (if r.monitor.queue.IsDirty key then 1 else 0) + r.workers.countP (Worker.carries key) +
    r.unadded.count key

/-- How often an item is processed, at least; a worker never asks before it processes. -/
def goal (r : Round) : Nat := max r.cycles 1

inductive Flow (r r' : Round) (key : String) : Prop where
  | kept (hc : r'.count key = r.count key) (ht : r'.tokens key ≤ r.tokens key)
    (hp : 0 < r.tokens key → 0 < r'.tokens key)
  | renewed (hp : 0 < r.tokens key) (hc : r'.count key = r.count key + 1)
    (ht : r'.tokens key = r.tokens key) (hlt : r'.count key < r.goal)
  | spent (hc : r'.count key = r.count key + 1) (ht : r'.tokens key + 1 = r.tokens key)
    (hle : r.goal ≤ r'.count key)

variable {r r' : Round} {i : Nat} {w : Worker} {m : Monitor String} {taken : List String}
  {key : String}

theorem Flow.of_eq (hc : r'.count key = r.count key) (ht : r'.tokens key = r.tokens key) :
    Flow r r' key := .kept hc (Nat.le_of_eq ht) fun hp => ht ▸ hp

theorem count_tally (h : r.counts.Ascending) (key k : String) :
    (r.tally key).count k = if k = key then r.count key + 1 else r.count k := by
  simp only [count, tally, h.get?_alter]
  split <;> rfl

theorem count_of_get? {n : Nat} (h : r.counts.get? key = some n) : r.count key = n := by
  rw [count, h]
  rfl

theorem mem_keys_of_count_pos (h : 0 < r.count key) : key ∈ r.counts.keys := by
  rw [count] at h
  cases hn : r.counts.get? key with
  | none =>
    rw [hn] at h
    exact absurd h (Nat.lt_irrefl 0)
  | some n => exact Keyed.mem_keys_of_get? hn

theorem finished_iff (h : r.counts.Ascending) :
    r.finished = true ↔ ∀ key ∈ r.counts.keys, r.cycles ≤ r.count key := by
  simp only [finished, List.all_eq_true, decide_eq_true_iff]
  constructor
  · intro hf key hk
    obtain ⟨n, hn⟩ := h.exists_get? hk
    rw [count, hn]
    exact hf _ (Keyed.mem_of_get? hn)
  · intro hf e he
    have := hf e.1 (List.mem_map_of_mem he)
    rwa [count, h.get?_eq_some he] at this

/-- An item that was just counted was counted once at least. -/
theorem goal_le_tally (h : r.counts.Ascending) (hc : r.cycles ≤ (r.tally key).count key) :
    r.goal ≤ (r.tally key).count key := by
  have hone := count_tally h key key
  rw [if_pos rfl] at hone
  exact Nat.max_le.2 ⟨hc, by omega⟩

theorem finished_tally (h : r.counts.Ascending) (hf : (r.tally key).finished = true) :
    r.goal ≤ (r.tally key).count key := by
  have hk : key ∈ (r.tally key).counts.keys := (Keyed.mem_keys_alter ..).2 (.inl rfl)
  exact goal_le_tally h ((finished_iff (r := r.tally key) (h.alter ..)).1 hf key hk)

/-- A worker that carries an item has one of its tokens. -/
theorem tokens_pos_of_carries (hw : r.workers[i]? = some w) (hc : w.carries key = true) :
    0 < r.tokens key := by
  have hpos : 0 < r.workers.countP (Worker.carries key) :=
    List.countP_pos_iff.2 ⟨w, List.mem_of_getElem? hw, hc⟩
  unfold tokens
  omega

/-- A worker goes on without its token, or with it. -/
theorem tokens_become (r' : Round) {w' : Worker} {k : String} (hw : r.workers[i]? = some w)
    (hset : r'.workers = r.workers.set i w') (hu : r'.unadded = r.unadded)
    (hd : r'.monitor.queue.IsDirty k ↔ r.monitor.queue.IsDirty k) :
    r'.tokens k + (if w.carries k then 1 else 0) = r.tokens k + if w'.carries k then 1 else 0 := by
  have h := countP_become (Worker.carries k) hw w'
  simp only [tokens, hd, hu, hset]
  omega

/-- A worker that has counted an item gives up its token, once the item was processed often enough,
or keeps it. -/
theorem flow_counting {w' : Worker} {r' : Round} {k : String}
    (hw : r.workers[i]? = some (.counting key)) (ha : r.counts.Ascending)
    (hset : r'.workers = r.workers.set i w') (hu : r'.unadded = r.unadded)
    (hm : r'.monitor = r.monitor) (hc : r'.counts = (r.tally key).counts)
    (hnext : r.goal ≤ (r.tally key).count key ∧ (∀ k, w'.carries k = false) ∨
      (r.tally key).count key < r.goal ∧ ∀ k, w'.carries k = (key == k)) : Flow r r' k := by
  have ht := tokens_become r' (k := k) hw hset hu (by rw [hm])
  have hcount : r'.count k = if k = key then r.count key + 1 else r.count k := by
    rw [← count_tally ha key k, count, hc]
    rfl
  have hcarries : Worker.carries k (.counting key) = (key == k) := rfl
  rw [hcarries] at ht
  by_cases hk : k = key
  · subst hk
    have hself := count_tally ha k k
    rw [if_pos rfl] at hcount hself
    have hpos : 0 < r.tokens k := tokens_pos_of_carries hw (by simp [hcarries])
    cases hnext with
    | inl h =>
      obtain ⟨hle, hn⟩ := h
      refine .spent hcount ?_ (by omega)
      simpa [hn] using ht
    | inr h =>
      obtain ⟨hlt, hn⟩ := h
      refine .renewed hpos hcount ?_ (by omega)
      simpa [hn] using ht
  · have hne : (key == k) = false := beq_false_of_ne (Ne.symm hk)
    rw [if_neg hk] at hcount
    cases hnext with
    | inl h =>
      obtain ⟨-, hn⟩ := h
      exact .of_eq hcount (by simpa [hn, hne] using ht)
    | inr h =>
      obtain ⟨-, hn⟩ := h
      exact .of_eq hcount (by simpa [hn, hne] using ht)

theorem Step.flow (h : r.Step taken r') (hs : r.monitor.queue.Sound) (ha : r.counts.Ascending)
    (haccepted : ∀ key, 0 < r.tokens key → ∃ t, r.monitor.queue.home key = some t)
    (k : String) : Flow r r' k := by
  have hself {i : Nat} {m : Monitor String} (hasks : r.Asks i m)
      (hg : ∀ x, m.queue.get.1 ≠ .item x) {w' : Worker} (hw' : w'.carries k = false) :
      Flow r ({ r with monitor := m.ask.2.1 }.become i w') k := by
    rw [hasks.queue_eq] at hg
    refine .of_eq rfl ?_
    simp only [tokens, become, Monitor.queue_ask, hasks.queue_eq, hs.get_eq_self hg,
      hasks.countP_become (P := Worker.carries k) rfl rfl, hw', Bool.false_eq_true, if_false,
      Nat.add_zero]
  cases h with
  | rests => exact .of_eq rfl rfl
  | delivers => exact .of_eq rfl (by simp only [tokens, Monitor.queue_deliver])
  | @adds key rest hu =>
    have hpos : 0 < r.tokens key := by simp [tokens, hu]
    obtain ⟨t, ht⟩ := haccepted key hpos
    have hd := hs.isDirty_add ht k
    by_cases hk : k = key
    · subst hk
      refine .kept rfl ?_ fun _ => ?_
      · simp only [tokens, Monitor.queue_add, hd, true_or, if_true, hu, List.count_cons_self]
        omega
      · simp only [tokens, Monitor.queue_add, hd, true_or, if_true]
        omega
    · refine .of_eq rfl ?_
      simp only [tokens, Monitor.queue_add, hd, hk, false_or, hu,
        List.count_cons_of_ne (Ne.symm hk)]
  | @takes i m key deadline hasks hg =>
    rw [hasks.queue_eq] at hg
    have hd := hs.isDirty_get hg k
    refine .of_eq rfl ?_
    simp only [tokens, become, Monitor.queue_ask, hasks.queue_eq, hd,
      hasks.countP_become (P := Worker.carries k) rfl rfl, Worker.carries, beq_iff_eq]
    by_cases hk : k = key
    · subst hk
      simp [(hs.waiting_of_get hg).1]
      omega
    · simp [hk, Ne.symm hk]
  | parks hasks hg => exact hself hasks (by simp [hg]) rfl
  | leaves hasks hg => exact hself hasks (by simp [hg]) rfl
  | @returns i key _ hw =>
    have hd : (r.monitor.done key).1.queue.IsDirty k ↔ r.monitor.queue.IsDirty k := by
      rw [Monitor.queue_done, hs.isDirty_done]
    have ht := tokens_become ({ r with monitor := (r.monitor.done key).1 }.become i (.counting key))
      hw rfl rfl hd
    exact .of_eq rfl (Nat.add_right_cancel ht)
  | @finds i key hw hf =>
    exact flow_counting hw ha rfl rfl rfl rfl (.inl ⟨finished_tally ha hf, fun _ => rfl⟩)
  | @repeats i key hw hf hc =>
    exact flow_counting hw ha rfl rfl rfl rfl
      (.inr ⟨Nat.lt_of_lt_of_le hc (Nat.le_max_left ..), fun _ => rfl⟩)
  | @completes i key hw hf hc =>
    exact flow_counting hw ha rfl rfl rfl rfl (.inl ⟨goal_le_tally ha hc, fun _ => rfl⟩)
  | @renews i key hw =>
    obtain ⟨t, ht⟩ := haccepted key (tokens_pos_of_carries hw (by simp [Worker.carries]))
    have hd := hs.isDirty_add ht k
    have hset := countP_become (Worker.carries k) hw .asking
    have hcarries : Worker.carries k (.renewing key) = (key == k) := rfl
    rw [hcarries] at hset
    by_cases hk : k = key
    · subst hk
      simp only [beq_self_eq_true, if_true, Worker.carries, Bool.false_eq_true, if_false] at hset
      refine .kept rfl ?_ fun _ => ?_
      · simp only [tokens, become, record, Monitor.queue_add, hd, true_or, if_true]
        omega
      · simp only [tokens, become, record, Monitor.queue_add, hd, true_or, if_true]
        omega
    · have hne : (key == k) = false := beq_false_of_ne (Ne.symm hk)
      refine .of_eq rfl ?_
      simp only [hne, Worker.carries, Bool.false_eq_true, if_false] at hset
      simp only [tokens, become, record, Monitor.queue_add, hd, hk, false_or]
      omega
  | @closes i key hw =>
    have hd : (r.shutDown).monitor.queue.IsDirty k ↔ r.monitor.queue.IsDirty k := by
      simp only [shutDown, Monitor.shutDown_eq, WorkQueue.isDirty_shutDown]
    have ht := tokens_become ((r.record key false).shutDown.become i .ended) hw rfl rfl hd
    exact .of_eq rfl ht

/-- Only an item that has a token is counted. -/
theorem Step.counts_cases (h : r.Step taken r') :
    r'.counts = r.counts ∨ ∃ key, 0 < r.tokens key ∧ r'.counts = (r.tally key).counts := by
  have hpos {i : Nat} {key : String} (hw : r.workers[i]? = some (.counting key)) :
      0 < r.tokens key := tokens_pos_of_carries hw (by simp [Worker.carries])
  cases h with
  | finds hw => exact .inr ⟨_, hpos hw, rfl⟩
  | repeats hw => exact .inr ⟨_, hpos hw, rfl⟩
  | completes hw => exact .inr ⟨_, hpos hw, rfl⟩
  | _ => exact .inl rfl

theorem Step.ascending (h : r.Step taken r') (ha : r.counts.Ascending) : r'.counts.Ascending := by
  cases h.counts_cases with
  | inl hc =>
    rwa [hc]
  | inr h =>
    obtain ⟨key, -, hc⟩ := h
    rw [hc]
    exact ha.alter ..

theorem Step.count_le (h : r.Step taken r') (ha : r.counts.Ascending) (k : String) :
    r.count k ≤ r'.count k := by
  cases h.counts_cases with
  | inl hc =>
    rw [count, count, hc]
  | inr h =>
    obtain ⟨key, -, hc⟩ := h
    have hk := count_tally ha key k
    rw [count, ← hc, ← count] at hk
    rw [hk]
    split
    · next e => rw [e]; omega
    · exact Nat.le_refl _

/-- The tokens that were there at first are spent or still there. No item is counted for a token that
was not, and while it was not counted often enough, it has one. -/
structure Balanced (issued : String → Nat) (r : Round) : Prop where
  accepted (key : String) : 0 < issued key → ∃ t, r.monitor.queue.home key = some t
  ascending : r.counts.Ascending
  known : ∀ key ∈ r.counts.keys, 0 < issued key
  listed : ∀ key ∈ r.profile.keys, key ∈ r.counts.keys
  bound (key : String) : max (r.count key) (r.goal - 1) + r.tokens key ≤ r.goal - 1 + issued key
  live (key : String) : 0 < issued key → r.count key < r.goal → 0 < r.tokens key

variable {issued : String → Nat}

theorem Balanced.issued_of_tokens (hb : r.Balanced issued) (hp : 0 < r.tokens key) :
    0 < issued key := by
  have := hb.bound key
  omega

theorem Step.balanced (h : r.Step taken r') (hs : r.monitor.queue.Sound)
    (hb : r.Balanced issued) : r'.Balanced issued := by
  have hgoal : r'.goal = r.goal := by rw [goal, h.cycles_eq, ← goal]
  have hflow := h.flow hs hb.ascending fun key hp => hb.accepted key (hb.issued_of_tokens hp)
  refine ⟨?_, h.ascending hb.ascending, ?_, ?_, ?_, ?_⟩
  · rw [h.home_eq]
    exact hb.accepted
  · cases h.counts_cases with
    | inl hc =>
      rw [hc]
      exact hb.known
    | inr h =>
      obtain ⟨key, hp, hc⟩ := h
      intro k hk
      rw [hc] at hk
      cases (Keyed.mem_keys_alter ..).1 hk with
      | inl e =>
        subst e
        exact hb.issued_of_tokens hp
      | inr hk =>
        exact hb.known k hk
  · intro k hk
    rw [h.profile_eq] at hk
    cases h.counts_cases with
    | inl hc =>
      rw [hc]
      exact hb.listed k hk
    | inr h =>
      obtain ⟨key, -, hc⟩ := h
      rw [hc]
      exact (Keyed.mem_keys_alter ..).2 (.inr (hb.listed k hk))
  · intro k
    have := hb.bound k
    rw [hgoal]
    cases hflow k with
    | kept hc ht hp => omega
    | renewed hp hc ht hlt => omega
    | spent hc ht hle => omega
  · intro k hk hlt
    have := hb.live k hk
    rw [hgoal] at hlt
    cases hflow k with
    | kept hc ht hp => exact hp (this (by omega))
    | renewed hp hc ht hlt => omega
    | spent hc ht hle => omega

/-- How often an item was handed out: as often as it was counted, and once more for each worker that
has yet to count it. -/
def begun (r : Round) (key : String) : Nat :=
  r.count key + r.workers.countP (Worker.handles key)

theorem Step.begun (h : r.Step taken r') (ha : r.counts.Ascending) (k : String) :
    r'.begun k = r.begun k + taken.count k := by
  have hsame {i : Nat} {w w' : Worker} (hw : r.workers[i]? = some w)
      (hh : w'.handles k = w.handles k) :
      (r.workers.set i w').countP (Worker.handles k) = r.workers.countP (Worker.handles k) := by
    have hset := countP_become (Worker.handles k) hw w'
    rw [hh] at hset
    exact Nat.add_right_cancel hset
  have hcounted {i : Nat} {key : String} {w' : Worker} (hw : r.workers[i]? = some (.counting key))
      (hw' : w'.handles k = false) :
      (r.tally key).count k + (r.workers.set i w').countP (Worker.handles k) = r.begun k := by
    have hset := countP_become (Worker.handles k) hw w'
    have hh : Worker.handles k (.counting key) = (key == k) := rfl
    simp only [hw', hh, beq_iff_eq, Bool.false_eq_true, if_false, Nat.add_zero] at hset
    rw [count_tally ha, Round.begun, ← hset]
    by_cases hk : k = key
    · subst hk
      simp only [if_true]
      omega
    · simp only [hk, Ne.symm hk, if_false, Nat.add_zero]
  have hasked {i : Nat} {m : Monitor String} {w' : Worker} (hm : r.Asks i m) :
      (r.workers.set i w').countP (Worker.handles k) =
        r.workers.countP (Worker.handles k) + if w'.handles k then 1 else 0 :=
    hm.countP_become rfl rfl w'
  cases h with
  | rests => rfl
  | delivers => rfl
  | adds => rfl
  | @takes i m key deadline hm =>
    have hh : Worker.handles k (.working key deadline) = (key == k) := rfl
    have hone : [key].count k = if key = k then 1 else 0 := by simp [List.count_singleton]
    exact (congrArg (r.count k + ·) (hasked hm)).trans (by rw [hh, hone, Round.begun]; simp; omega)
  | parks hm => exact congrArg (r.count k + ·) (hasked hm)
  | leaves hm => exact congrArg (r.count k + ·) (hasked hm)
  | returns hw => exact congrArg (r.count k + ·) (hsame hw rfl)
  | finds hw => exact hcounted hw rfl
  | repeats hw => exact hcounted hw rfl
  | completes hw => exact hcounted hw rfl
  | renews hw => exact congrArg (r.count k + ·) (hsame hw rfl)
  | closes hw => exact congrArg (r.count k + ·) (hsame hw rfl)

theorem handles_le_tokens (r : Round) (key : String) :
    r.workers.countP (Worker.handles key) ≤ r.tokens key := by
  have hle : r.workers.countP (Worker.handles key) ≤ r.workers.countP (Worker.carries key) :=
    List.countP_mono_left fun w _ hw => by
      cases w <;> simp_all [Worker.handles, Worker.carries]
  unfold tokens
  omega

/-- An item is not handed out more often than it was due. -/
theorem Balanced.begun_le (hb : r.Balanced issued) (key : String) :
    r.begun key ≤ r.goal - 1 + issued key := by
  have := hb.bound key
  have := handles_le_tokens r key
  unfold Round.begun
  omega

theorem Balanced.begun_eq_zero (hb : r.Balanced issued) (hk : issued key = 0) :
    r.begun key = 0 := by
  have hcount : r.count key = 0 := by
    by_contra hne
    have := hb.known key (mem_keys_of_count_pos (Nat.pos_of_ne_zero hne))
    omega
  have := hb.bound key
  have := handles_le_tokens r key
  unfold Round.begun
  omega

end Round

end TenantQueue.LoadTest
