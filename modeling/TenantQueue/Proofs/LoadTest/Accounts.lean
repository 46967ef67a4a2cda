import TenantQueue.Proofs.LoadTest.Outcome

/-! The accounts of a round that anybody may cut short, at any time. Each key has its token until it
was processed often enough; when the workers have gone home, the tokens that are left are the items
that wait in the queue. -/
namespace TenantQueue.LoadTest
open Queue Telemetry

inductive Incident where
  | turn (t : Turn)
  | shutDown
  deriving DecidableEq, Repr

def Worker.isThrough : Worker → Bool
  | .closing _ => true
  | .ended => true
  | _ => false

namespace Round
variable {r r' : Round} {taken : List String} {issued : String → Nat}

def meet : Incident → Round → Round
  | .turn t, r => r.step t
  | .shutDown, r => r.shutDown

def undergo (incidents : List Incident) (r : Round) : Round :=
  incidents.foldl (fun r incident => r.meet incident) r

/-- What a step keeps, and a shutdown, is kept by whatever happens. -/
theorem undergo_induction {P : Round → Prop}
    (hstep : ∀ r taken r', P r → Step r taken r' → P r') (hdown : ∀ r, P r → P r.shutDown)
    (incidents : List Incident) (h : P r) : P (r.undergo incidents) := by
  induction incidents generalizing r with
  | nil => exact h
  | cons incident incidents ih =>
    cases incident with
    | turn t => exact ih (hstep r _ _ h (step_spec r t))
    | shutDown => exact ih (hdown r h)

/-- Left alone, a round is a run of turns. -/
theorem undergo_eq_run {incidents : List Incident} (hn : .shutDown ∉ incidents) (r : Round) :
    ∃ turns, r.undergo incidents = r.run turns := by
  induction incidents generalizing r with
  | nil => exact ⟨[], rfl⟩
  | cons incident incidents ih =>
    cases incident with
    | turn t =>
      obtain ⟨turns, h⟩ := ih (fun hm => hn (List.mem_cons_of_mem _ hm)) (r.step t)
      exact ⟨t :: turns, h⟩
    | shutDown => exact absurd List.mem_cons_self hn

theorem queue_shutDown (r : Round) : r.shutDown.monitor.queue = r.monitor.queue.shutDown.1 :=
  congrArg Monitor.queue (Monitor.shutDown_eq _)

theorem Staffed.shutDown (hs : r.Staffed) : r.shutDown.Staffed where
  awake := hs.awake.shutDown
  parked := hs.parked.trans (Monitor.consumers_shutDown _).symm
  held key := by
    simp only [queue_shutDown, WorkQueue.isProcessing_shutDown]
    exact hs.held key
  ended _ := queue_shutDown r ▸ WorkQueue.shuttingDown_shutDown _
  workers_ne_nil := hs.workers_ne_nil

theorem tokens_shutDown (r : Round) (key : String) : r.shutDown.tokens key = r.tokens key := by
  simp only [tokens, queue_shutDown, WorkQueue.isDirty_shutDown]
  rfl

theorem Balanced.shutDown (hb : r.Balanced issued) : r.shutDown.Balanced issued where
  accepted key hk := by
    rw [queue_shutDown, WorkQueue.home_shutDown]
    exact hb.accepted key hk
  ascending := hb.ascending
  known := hb.known
  listed := hb.listed
  bound key := tokens_shutDown r key ▸ hb.bound key
  live key hk hlt := tokens_shutDown r key ▸ hb.live key hk hlt

structure Kept (p : Profile) (cycles : Nat) (r : Round) : Prop where
  staffed : r.Staffed
  balanced : r.Balanced fun key => if key ∈ p.keys then 1 else 0
  profile_eq : r.profile = p
  cycles_eq : r.cycles = cycles

variable {p : Profile} {cycles : Nat}

theorem Step.kept (h : r.Step taken r') (hk : r.Kept p cycles) : r'.Kept p cycles where
  staffed := h.staffed hk.staffed
  balanced := h.balanced hk.staffed.awake.sound hk.balanced
  profile_eq := h.profile_eq.trans hk.profile_eq
  cycles_eq := h.cycles_eq.trans hk.cycles_eq

theorem Kept.shutDown (hk : r.Kept p cycles) : r.shutDown.Kept p cycles where
  staffed := hk.staffed.shutDown
  balanced := hk.balanced.shutDown
  profile_eq := hk.profile_eq
  cycles_eq := hk.cycles_eq

theorem kept_start {queue : WorkQueue String} (hs : queue.Sound) (hempty : queue.size = 0)
    (hnone : ∀ key, ¬ queue.IsProcessing key) (hp : p.Valid) (cycles workers : Nat) :
    (start queue p cycles workers).Kept p cycles where
  staffed := staffed_start hs hnone p cycles workers
  balanced := by
    have hready : queue.ready = [] := List.length_eq_zero_iff.1 (hs.length_ready.trans hempty)
    have hissued : (start queue p cycles workers).tokens =
        fun key => if key ∈ p.keys then 1 else 0 := by
      funext key
      simp [tokens_start_eq hs hnone hp cycles workers key, hready]
    exact hissued ▸ balanced_start hs hp cycles workers
  profile_eq := rfl
  cycles_eq := rfl

theorem Kept.goal_eq (hk : r.Kept p cycles) : r.goal = max cycles 1 :=
  congrArg (max · 1) hk.cycles_eq

/-- A key of the profile has one token until it was processed often enough; then it has none, and
nothing else has one. -/
theorem Kept.tokens_eq (hk : r.Kept p cycles) (key : String) :
    r.tokens key = if key ∈ p.keys ∧ r.count key < max cycles 1 then 1 else 0 := by
  have hgoal := hk.goal_eq
  have hbound := hk.balanced.bound key
  have hlive := hk.balanced.live key
  rw [hgoal] at hbound hlive
  by_cases hm : key ∈ p.keys
  · simp only [hm, if_true, true_and] at hbound hlive ⊢
    split
    · next hlt =>
      have := hlive Nat.one_pos hlt
      omega
    · omega
  · simp only [hm, if_false, false_and] at hbound ⊢
    omega

theorem Kept.count_le (hk : r.Kept p cycles) (key : String) : r.count key ≤ max cycles 1 := by
  have hgoal := hk.goal_eq
  have hbound := hk.balanced.bound key
  rw [hgoal] at hbound
  split at hbound <;> omega

/-- Each key of the profile is counted, and nothing else. -/
theorem Kept.keys_eq (hk : r.Kept p cycles) (hp : p.Valid) : r.counts.keys = p.keys := by
  refine List.Pairwise.eq_of_mem_iff hk.balanced.ascending hp.ascending
    fun key => ⟨fun hm => ?_, fun hm => ?_⟩
  · by_contra hn
    have hpos := hk.balanced.known key hm
    rw [if_neg hn] at hpos
    exact Nat.lt_irrefl 0 hpos
  · exact hk.balanced.listed key (hk.profile_eq ▸ hm)

/-- What waits at the end is what was not processed often enough. -/
theorem Kept.mem_ready (hk : r.Kept p cycles) (ho : r.isOver = true) (key : String) :
    key ∈ r.monitor.queue.ready ↔ key ∈ p.keys ∧ r.count key < max cycles 1 := by
  have htokens := hk.tokens_eq key
  rw [tokens, countP_of_isOver ho rfl, (isOver_iff.1 ho).1, List.count_nil] at htokens
  rw [hk.staffed.awake.sound.mem_ready]
  have hfree := hk.staffed.not_processing_of_isOver ho key
  constructor
  · rintro ⟨hd, -⟩
    by_contra hn
    rw [if_pos hd, if_neg hn] at htokens
    omega
  · intro hm
    refine ⟨?_, hfree⟩
    by_contra hd
    rw [if_neg hd, if_pos hm] at htokens
    omega

def total (r : Round) : Nat := (r.counts.entries.map Prod.snd).sum

theorem total_tally (r : Round) (key : String) : (r.tally key).total = r.total + 1 :=
  Keyed.sum_alterIn key r.counts.entries

theorem total_start (queue : WorkQueue String) (p : Profile) (cycles workers : Nat) :
    (start queue p cycles workers).total = 0 := by
  simp [total, start, Function.comp_def]

theorem finished_of_zero (h : r.cycles = 0) : r.finished = true := by
  simp [finished, h]

/-- If no item has to be processed often, a worker is through once it has processed one. -/
theorem Step.through (h : r.Step taken r') (hzero : r.cycles = 0) :
    r'.total + r.workers.countP Worker.isThrough ≤
      r.total + r'.workers.countP Worker.isThrough := by
  have hset {i : Nat} {w : Worker} (hw : r.workers[i]? = some w) (w' : Worker)
      (he : w.isThrough = w'.isThrough) :
      r.total + r.workers.countP Worker.isThrough ≤
        r.total + (r.workers.set i w').countP Worker.isThrough := by
    have h := countP_become Worker.isThrough hw w'
    rw [he] at h
    exact Nat.add_le_add_left (Nat.add_right_cancel h).ge _
  have hasks {i : Nat} {m : Monitor String} (ha : r.Asks i m) (w' : Worker) :
      r.total + r.workers.countP Worker.isThrough ≤
        r.total + (r.workers.set i w').countP Worker.isThrough := by
    rw [ha.countP_become (P := Worker.isThrough) rfl rfl w']
    exact Nat.add_le_add_left (Nat.le_add_right ..) _
  cases h with
  | takes _ ha => exact hasks ha _
  | parks ha => exact hasks ha _
  | leaves ha => exact hasks ha _
  | returns hw => exact hset hw (.counting _) rfl
  | @finds i key hw =>
    have h := countP_become Worker.isThrough hw (.closing key)
    have ht := total_tally r key
    simp only [Worker.isThrough, if_true, Bool.false_eq_true, if_false] at h
    show (r.tally key).total + _ ≤ r.total + (r.workers.set i (.closing key)).countP _
    omega
  | @repeats i key hw hf =>
    exact absurd (hf.symm.trans (finished_of_zero (r := r.tally key) hzero)) Bool.false_ne_true
  | @completes i key hw hf =>
    exact absurd (hf.symm.trans (finished_of_zero (r := r.tally key) hzero)) Bool.false_ne_true
  | renews hw => exact hset hw .asking rfl
  | closes hw => exact hset hw .ended rfl
  | _ => exact Nat.le_refl _

theorem Step.length_workers (h : r.Step taken r') : r'.workers.length = r.workers.length := by
  cases h with
  | rests => rfl
  | delivers => rfl
  | adds => rfl
  | _ => exact List.length_set

/-- A worker is to close the queue after it has counted an item. -/
theorem Step.closing_cases (h : r.Step taken r') {i : Nat} {key : String}
    (hi : r'.workers[i]? = some (.closing key)) :
    r.workers[i]? = some (.closing key) ∨ 0 < r'.total := by
  have hset {j : Nat} {w' : Worker} (hi : (r.workers.set j w')[i]? = some (.closing key))
      (hw' : w' ≠ .closing key) : r.workers[i]? = some (.closing key) := by
    rw [List.getElem?_set] at hi
    split at hi
    · split at hi
      · exact absurd (Option.some.inj hi) hw'
      · cases hi
    · exact hi
  cases h with
  | rests => exact .inl hi
  | delivers => exact .inl hi
  | adds => exact .inl hi
  | finds => exact .inr (Nat.lt_of_lt_of_eq (Nat.succ_pos _) (total_tally r _).symm)
  | takes => exact .inl (hset hi (by simp))
  | parks => exact .inl (hset hi (by simp))
  | leaves => exact .inl (hset hi (by simp))
  | returns => exact .inl (hset hi (by simp))
  | repeats => exact .inl (hset hi (by simp))
  | completes => exact .inl (hset hi (by simp))
  | renews => exact .inl (hset hi (by simp))
  | closes => exact .inl (hset hi (by simp))

theorem Step.total_le (h : r.Step taken r') : r.total ≤ r'.total := by
  cases h.counts_cases with
  | inl hc => rw [total, total, hc]
  | inr hc =>
    obtain ⟨key, -, hc⟩ := hc
    have ht := total_tally r key
    rw [total, ← hc, ← total] at ht
    omega

/-- A round that is left alone does not end before an item was counted. -/
theorem Step.total_pos (h : r.Step taken r') (ht : r.Ending → 0 < r.total) (he : r'.Ending) :
    0 < r'.total := by
  have hold (hr : r.Ending) : 0 < r'.total := Nat.lt_of_lt_of_le (ht hr) h.total_le
  cases he with
  | inl hd =>
    cases h.queue_cases with
    | inl hq =>
      obtain ⟨calls, hn, hq⟩ := hq
      rw [hq, WorkQueue.shuttingDown_run hn] at hd
      exact hold (.inl hd)
    | inr hq => exact hold (.inr hq.1)
  | inr hc =>
    obtain ⟨i, key, hi⟩ := hc
    cases h.closing_cases hi with
    | inl hi => exact hold (.inr ⟨i, key, hi⟩)
    | inr hpos => exact hpos

structure Brief (n : Nat) (r : Round) : Prop where
  cycles_eq : r.cycles = 0
  length_eq : r.workers.length = n
  through : r.total ≤ r.workers.countP Worker.isThrough
  total_pos : r.Ending → 0 < r.total

theorem Step.brief {n : Nat} (h : r.Step taken r') (hb : r.Brief n) : r'.Brief n where
  cycles_eq := h.cycles_eq.trans hb.cycles_eq
  length_eq := h.length_workers.trans hb.length_eq
  through := by
    have := h.through hb.cycles_eq
    have := hb.through
    omega
  total_pos := h.total_pos hb.total_pos

theorem brief_start {queue : WorkQueue String} (hopen : queue.shuttingDown = false) (p : Profile)
    (workers : Nat) : (start queue p 0 workers).Brief (max workers 1) where
  cycles_eq := rfl
  length_eq := List.length_replicate
  through := by
    rw [total_start]
    exact Nat.zero_le _
  total_pos he := by
    cases he with
    | inl hd => exact absurd (hopen.symm.trans hd) Bool.false_ne_true
    | inr hc =>
      obtain ⟨i, key, hi⟩ := hc
      simp [start, List.getElem?_replicate] at hi

/-- However a round ends, and whoever shuts its queue down: the queue is shutting down; every key of
the profile is counted, and nothing else, no key more often than was asked for; nothing is checked
out; and the keys that were not processed often enough wait in the queue, each once. If no item has to
be processed and nobody else shuts the queue down, each worker processes one item at most. -/
theorem accounts_balance (flavour : Flavour) (name : Option String) (calls : List (Call String))
    {q : WorkQueue String} (hq : q = WorkQueue.run calls (.empty flavour name))
    (hempty : q.size = 0) (hnone : ∀ key, ¬ q.IsProcessing key) {items : List (String × Nat)}
    {p : Profile} (hp : Profile.ofList items = .ok p) (cycles workers : Nat)
    (incidents : List Incident) :
    let r := (start q p cycles workers).undergo incidents
    let unfinished := p.keys.filter fun key => r.count key < max cycles 1
    r.isOver = true →
      r.monitor.queue.shuttingDown = true ∧
      r.counts.keys = p.keys ∧
      (∀ key, r.count key ≤ max cycles 1) ∧
      (∀ key, ¬ r.monitor.queue.IsProcessing key) ∧
      r.monitor.queue.ready.Perm unfinished ∧
      r.monitor.queue.size = unfinished.length ∧
      (cycles = 0 → q.shuttingDown = false → .shutDown ∉ incidents →
        1 ≤ r.total ∧ r.total ≤ max workers 1) := by
  intro r unfinished ho
  have hs : q.Sound := hq ▸ (WorkQueue.sound_empty flavour name).run calls
  have hvalid := Profile.valid_of_ofList hp
  have hk : r.Kept p cycles :=
    undergo_induction (fun _ _ _ hk h => h.kept hk) (fun _ hk => hk.shutDown) incidents
      (kept_start hs hempty hnone hvalid cycles workers)
  have hsound := hk.staffed.awake.sound
  have hdown := hk.staffed.shuttingDown_of_isOver ho
  have hperm : r.monitor.queue.ready.Perm unfinished := by
    refine (List.perm_ext_iff_of_nodup hsound.ready_nodup (hvalid.ascending.nodup.filter _)).2
      fun key => ?_
    rw [hk.mem_ready ho, List.mem_filter, decide_eq_true_iff]
    rfl
  refine ⟨hdown, hk.keys_eq hvalid, hk.count_le, hk.staffed.not_processing_of_isOver ho, hperm,
    hsound.length_ready.symm.trans hperm.length_eq, fun hzero hopen hn => ?_⟩
  have hb : r.Brief (max workers 1) := by
    obtain ⟨turns, hturns⟩ := undergo_eq_run hn (start q p cycles workers)
    subst hzero
    rw [show r = _ from hturns]
    exact run_induction (fun _ _ _ hb h => h.brief hb) turns (brief_start hopen p workers)
  refine ⟨hb.total_pos (.inl hdown), hb.through.trans ?_⟩
  exact hb.length_eq ▸ List.countP_le_length

/-- The queue is shut down while the only worker is about to add the first key again, which is added
all the same. Both keys are left. -/
theorem accounts_after_shutdown :
    let q : WorkQueue String := WorkQueue.run [] (.empty .fair)
    let p : Profile := ⟨⟨[("a/1", 0), ("b/1", 0)]⟩⟩
    let incidents : List Incident := [.turn .adder, .turn (.worker 0), .turn .adder,
      .turn (.worker 0), .turn (.worker 0), .shutDown, .turn (.worker 0), .turn (.worker 0)]
    q.size = 0 ∧ (∀ key, ¬ q.IsProcessing key) ∧
      Profile.ofList [("a/1", 0), ("b/1", 0)] = .ok p ∧
      ((start q p 2 1).undergo incidents).isOver = true ∧
      ((start q p 2 1).undergo incidents).counts.keys = ["a/1", "b/1"] ∧
      ((start q p 2 1).undergo incidents).monitor.queue.ready.Perm ["a/1", "b/1"] ∧
      ((start q p 2 1).undergo incidents).monitor.queue.size = 2 := by
  intro q p incidents
  have hnone (key : String) : ¬ q.IsProcessing key :=
    (WorkQueue.not_held_empty .fair none key).2
  have hp : Profile.ofList [("a/1", 0), ("b/1", 0)] = .ok p := rfl
  have hover : ((start q p 2 1).undergo incidents).isOver = true := by decide
  have hleft : p.keys.filter
      (fun key => ((start q p 2 1).undergo incidents).count key < max 2 1) = ["a/1", "b/1"] := by
    decide
  obtain ⟨-, hkeys, -, -, hready, hsize, -⟩ :=
    accounts_balance (q := q) .fair none [] rfl rfl hnone hp 2 1 incidents hover
  rw [hleft] at hready hsize
  exact ⟨rfl, hnone, hp, hover, hkeys, hready, hsize⟩

end Round

end TenantQueue.LoadTest
