import TenantQueue.Proofs.LoadTest.Moves
import TenantQueue.Proofs.LoadTest.Outcome

/-! A load test that is cancelled at any time. It reports complete rounds only, and who cancels is not
missed: where the flag is seen too late to hold a round back, the queue of the round is published
already. -/
namespace TenantQueue.LoadTest
open Queue Telemetry

def fresh (p : Profile) (o : Options) (flavour : Flavour) : Round :=
  .start (.empty flavour ("loadtest-" ++ flavourName flavour)) p o.cycles o.workers

def Complete (p : Profile) (o : Options) (flavour : Flavour) (work : Round) : Prop :=
  ∃ turns, work = (fresh p o flavour).run turns ∧ work.isOver = true

/-- A complete round has processed each key as often as was asked for. -/
theorem Complete.counts_eq {p : Profile} {o : Options} {flavour : Flavour} {work : Round}
    (h : Complete p o flavour work) (hp : p.Valid) (hcycles : 1 ≤ o.cycles) :
    work.counts = ⟨p.keys.map (·, o.cycles)⟩ := by
  obtain ⟨turns, rfl, ho⟩ := h
  let name := "loadtest-" ++ flavourName flavour
  let queue : WorkQueue String := .empty flavour name
  have hs : queue.Sound := WorkQueue.sound_empty flavour name
  have hopen : queue.shuttingDown = false := by cases flavour <;> rfl
  have hnone (key : String) : ¬ queue.IsProcessing key :=
    (WorkQueue.not_held_empty flavour name key).2
  have hready : queue.ready = [] := by cases flavour <;> rfl
  have hr := Round.reached_run hs hopen hnone hp o.cycles o.workers turns
  have hissued := Round.tokens_start_eq hs hnone hp o.cycles o.workers
  refine hr.counts_eq_const hissued hp (fun _ => List.mem_toFinset) (by simp [hready])
    fun key hk => ?_
  obtain ⟨n, hn, hge, hle⟩ :=
    hr.counts_of_isOver hissued hcycles ho (List.mem_toFinset.1 hk) hk
  rw [hready, List.toFinset_nil, if_neg (Finset.notMem_empty key)] at hle
  exact hn.trans (congrArg some (Nat.le_antisymm hle hge))

namespace Stage

def queue? : Stage → Option (WorkQueue String)
  | .testing queue => some queue
  | .draining work => some work.monitor.queue
  | .withdrawing work => some work.monitor.queue
  | _ => none

def begun? : Stage → Option Round
  | .draining work => some work
  | .withdrawing work => some work
  | _ => none

theorem queue?_of_begun {stage : Stage} {work : Round} (h : stage.begun? = some work) :
    stage.queue? = some work.monitor.queue := by
  cases stage with
  | draining => cases h; rfl
  | withdrawing => cases h; rfl
  | _ => cases h

theorem queue?_shutDown (stage : Stage) :
    (Test.Stage.shutDown stage).queue? = stage.queue?.map (·.shutDown.1) := by
  cases stage with
  | draining work => exact congrArg (some ∘ Monitor.queue) (Monitor.shutDown_eq _)
  | withdrawing work => exact congrArg (some ∘ Monitor.queue) (Monitor.shutDown_eq _)
  | _ => rfl

def isDraining : Stage → Bool
  | .draining _ => true
  | _ => false

def isBusy : Stage → Bool
  | .opening => false
  | .ended _ => false
  | _ => true

def Intact (p : Profile) (o : Options) (flavour : Flavour) : Stage → Prop
  | .testing queue => queue = .empty flavour ("loadtest-" ++ flavourName flavour)
  | .draining work => ∃ turns, work = (fresh p o flavour).run turns
  | .withdrawing work => Complete p o flavour work
  | .judging work => Complete p o flavour work
  | _ => True

end Stage

def finishes (flavour : Flavour) (e : Event) : Bool :=
  e.message == "round finished" &&
    match e.fields with
    | ("flavour", .text name) :: _ => name == flavourName flavour
    | _ => false

namespace Test
variable {t t' : Test} {move : Move} {log : List Event}

structure Faithful (p : Profile) (o : Options) (t : Test) : Prop where
  profile_eq : t.profile = p
  options_eq : t.options = o
  intact : t.cancelled = false → t.stage.Intact p o t.flavour
  silent : t.cancelled = false → t.cancelling = 0
  complete (flavour : Flavour) : ∀ report ∈ t.reports flavour,
    ∃ work, Complete p o flavour work ∧ report = work.report

variable {p : Profile} {o : Options}

theorem Step.intact (h : t.Step move t') (ht : t.Faithful p o) (hc : t'.cancelled = false) :
    t'.stage.Intact p o t'.flavour := by
  have hp := ht.profile_eq
  have ho := ht.options_eq
  cases h with
  | idles => exact ht.intact hc
  | opens => rfl
  | @begins queue hs =>
    have hi := ht.intact hc
    rw [hs] at hi
    have hq : queue = .empty t.flavour ("loadtest-" ++ flavourName t.flavour) := hi
    refine ⟨[], ?_⟩
    rw [hq, hp, ho]
    rfl
  | turns turn hs =>
    have hi := ht.intact hc
    rw [hs] at hi
    obtain ⟨turns, rfl⟩ := hi
    exact ⟨turns ++ [turn], (Round.run_append turns [turn] _).symm⟩
  | ends hs hover =>
    have hi := ht.intact hc
    rw [hs] at hi
    obtain ⟨turns, hw⟩ := hi
    exact ⟨turns, hw, hover⟩
  | withdraws hs =>
    have hi := ht.intact hc
    rwa [hs] at hi
  | keeps => trivial
  | switches => trivial
  | concludes => trivial
  | cancels => cases hc
  | silences hn => exact absurd (ht.silent hc) hn

theorem Step.silent (h : t.Step move t') (ht : t.Faithful p o) (hc : t'.cancelled = false) :
    t'.cancelling = 0 := by
  cases h with
  | cancels => cases hc
  | silences hn => exact absurd (ht.silent hc) hn
  | _ => exact ht.silent hc

theorem Step.faithful (h : t.Step move t') (ht : t.Faithful p o) : t'.Faithful p o where
  profile_eq := h.profile_eq.trans ht.profile_eq
  options_eq := h.options_eq.trans ht.options_eq
  intact := h.intact ht
  silent := h.silent ht
  complete flavour report hm := by
    cases h.reports_cases with
    | inl hr => exact ht.complete flavour report (hr ▸ hm)
    | inr hr =>
      obtain ⟨work, hs, hc, hr⟩ := hr
      rw [hr, List.mem_append] at hm
      cases hm with
      | inl hm => exact ht.complete flavour report hm
      | inr hm =>
        split at hm
        · next hf =>
          have hi := ht.intact hc
          rw [hs, hf] at hi
          exact ⟨work, hi, List.mem_singleton.1 hm⟩
        · cases hm

/-- Those who cancel are heeded. Once one of them has come back, the queue of a round that was begun
is shut down, until it is withdrawn. -/
structure Heeds (callers : Nat) (t : Test) : Prop where
  flag : 0 < callers → t.cancelled = true
  pending : t.cancelling ≤ callers
  published : t.stage.queue? ≠ none → t.published = true
  down : t.cancelling < callers →
    ∀ work, t.stage.begun? = some work → work.monitor.queue.shuttingDown = true

/-- Who cancels shuts the queue down that is published. -/
theorem Heeds.silences {n : Nat} (ht : t.Heeds n) :
    Heeds n { t with cancelling := t.cancelling - 1
                     stage := if t.published then Stage.shutDown t.stage else t.stage } where
  flag := ht.flag
  pending := (Nat.sub_le ..).trans ht.pending
  published hq := by
    by_contra hp
    rw [if_neg hp] at hq
    exact hp (ht.published hq)
  down _ work hw := by
    cases hp : t.published with
    | true =>
      rw [hp, if_pos rfl] at hw
      have hq := Stage.queue?_of_begun hw
      rw [Stage.queue?_shutDown, Option.map_eq_some_iff] at hq
      obtain ⟨queue, -, hq⟩ := hq
      exact hq ▸ WorkQueue.shuttingDown_shutDown queue
    | false =>
      rw [hp, if_neg Bool.false_ne_true] at hw
      have hfound := ht.published (by simp [Stage.queue?_of_begun hw])
      exact absurd (hp.symm.trans hfound) Bool.false_ne_true

theorem Step.heeds {n : Nat} (h : t.Step move t') (ht : t.Heeds n) :
    t'.Heeds (n + if move = .cancel then 1 else 0) := by
  cases h with
  | idles hm => simpa [hm] using ht
  | opens => exact ⟨ht.flag, ht.pending, fun _ => rfl, by simp [Stage.begun?]⟩
  | begins hs hc =>
    refine ⟨ht.flag, ht.pending, fun _ => ht.published (by simp [hs, Stage.queue?]), fun hn => ?_⟩
    have hn : t.cancelling < n := hn
    exact absurd (hc.symm.trans (ht.flag (by omega))) (by simp)
  | turns turn hs =>
    refine ⟨ht.flag, ht.pending, fun _ => ht.published (by simp [hs, Stage.queue?]), ?_⟩
    rintro hn work ⟨⟩
    exact (Round.step_spec _ turn).shuttingDown (ht.down hn _ (by rw [hs]; rfl))
  | ends hs =>
    refine ⟨ht.flag, ht.pending, fun _ => ht.published (by simp [hs, Stage.queue?]), ?_⟩
    rintro hn work ⟨⟩
    exact ht.down hn _ (by rw [hs]; rfl)
  | withdraws => exact ⟨ht.flag, ht.pending, by simp [Stage.queue?], by simp [Stage.begun?]⟩
  | keeps => exact ⟨ht.flag, ht.pending, by simp [Stage.queue?], by simp [Stage.begun?]⟩
  | switches => exact ⟨ht.flag, ht.pending, by simp [Stage.queue?], by simp [Stage.begun?]⟩
  | concludes =>
    exact ⟨ht.flag, ht.pending, by simp [emit, Stage.queue?], by simp [emit, Stage.begun?]⟩
  | cancels =>
    refine ⟨fun _ => rfl, Nat.succ_le_succ ht.pending, ht.published, fun hn => ?_⟩
    exact ht.down (Nat.lt_of_succ_lt_succ hn)
  | silences => exact ht.silences

theorem heeds_run (moves : List Move) {n : Nat} (ht : t.Heeds n) :
    (t.run moves).Heeds (n + moves.count .cancel) := by
  induction moves generalizing t n with
  | nil => exact ht
  | cons move moves ih =>
    have hcount : (move :: moves).count .cancel =
        (if move = .cancel then 1 else 0) + moves.count .cancel := by
      simp [List.count_cons, Nat.add_comm]
    rw [hcount, ← Nat.add_assoc]
    exact ih ((step_spec t move).heeds ht)

theorem Step.cancelled (h : t.Step move t') (hc : t.cancelled = true) : t'.cancelled = true := by
  cases h with
  | cancels => rfl
  | _ => exact hc

/-- Once the flag is set, a round is drained only if it was being drained. -/
theorem Step.isDraining (h : t.Step move t') (hc : t.cancelled = true)
    (hd : t.stage.isDraining = false) : t'.stage.isDraining = false := by
  cases h with
  | idles => exact hd
  | begins hs hn => exact absurd (hc.symm.trans hn) (by simp)
  | turns turn hs => exact absurd (hs ▸ hd) (by simp [Stage.isDraining])
  | cancels => exact hd
  | silences hn =>
    simp only
    split
    · revert hd
      cases t.stage <;> exact id
    · exact hd
  | _ => rfl

theorem Quits.cause (hq : t.Quits log) : t.options.rounds ≤ t.round ∨ t.cancelled = true := by
  cases hq with
  | full hs hr => exact .inl hr
  | warned hs hc => exact .inr hc
  | interrupted hs hc => exact .inr hc

/-- The rounds that were made. There are fewer than asked for only in a test that was cancelled. -/
structure Counted (t : Test) : Prop where
  round_eq : t.round = (t.reports t.flavour).length
  le (flavour : Flavour) : (t.reports flavour).length ≤ t.options.rounds
  busy : t.stage.isBusy = true → t.round < t.options.rounds
  later : t.flavour = .fair → t.fifo = []
  short : t.flavour = .fifo → t.fair.length < t.options.rounds → t.cancelled = true ∧ t.fifo = []
  ended (cancelled : Bool) : t.stage = .ended cancelled → t.flavour = .fifo ∧
    (cancelled = false → t.fair.length = t.options.rounds ∧ t.fifo.length = t.options.rounds)

/-- A round goes on. -/
theorem Counted.goes_on (ht : t.Counted) {stage : Stage} (published : Bool) (cancelling : Nat)
    (hb : stage.isBusy = true → t.stage.isBusy = true)
    (he : ∀ cancelled, stage = .ended cancelled → t.stage = .ended cancelled) :
    Counted { t with stage, published, cancelling } where
  round_eq := ht.round_eq
  le := ht.le
  busy h := ht.busy (hb h)
  later := ht.later
  short := ht.short
  ended cancelled h := ht.ended cancelled (he cancelled h)

theorem Counted.switches (ht : t.Counted) (hq : t.Quits log) (hf : t.flavour = .fair) :
    Counted { t with flavour := .fifo, round := 0, stage := .opening, log } where
  round_eq := (congrArg List.length (ht.later hf)).symm
  le := ht.le
  busy h := by cases h
  later h := by cases h
  short _ hlt := by
    refine ⟨hq.cause.resolve_left fun hr => ?_, ht.later hf⟩
    have hround : t.round = t.fair.length := by rw [ht.round_eq, hf]; rfl
    have hlt : t.fair.length < t.options.rounds := hlt
    omega
  ended _ h := by cases h

theorem Counted.concludes (ht : t.Counted) (hq : t.Quits log) (hf : t.flavour = .fifo)
    (log' : List Event) : Counted { t with stage := .ended t.cancelled, log := log' } where
  round_eq := ht.round_eq
  le := ht.le
  busy h := by cases h
  later := ht.later
  short := ht.short
  ended cancelled h := by
    refine ⟨hf, fun hc => ?_⟩
    cases h
    have hr : t.options.rounds ≤ t.round := hq.cause.resolve_right (by simp [hc])
    have hround : t.round = t.fifo.length := by rw [ht.round_eq, hf]; rfl
    have hfair : t.fair.length ≤ t.options.rounds := ht.le .fair
    have hfifo : t.fifo.length ≤ t.options.rounds := ht.le .fifo
    refine ⟨Nat.le_antisymm hfair ?_, Nat.le_antisymm hfifo (hround ▸ hr)⟩
    by_contra hlt
    exact absurd (hc.symm.trans (ht.short hf (Nat.not_le.1 hlt)).1) Bool.false_ne_true

theorem Counted.keeps (ht : t.Counted) (report : RoundReport) (hs : t.stage.isBusy = true)
    (hc : t.cancelled = false) : Counted (t.keep report) := by
  have hreports := reports_keep t report
  have hround := ht.busy hs
  rw [keep_eq] at hreports ⊢
  constructor
  · rw [hreports, if_pos rfl, List.length_append, ← ht.round_eq]
    rfl
  · intro flavour
    rw [hreports, List.length_append]
    by_cases hf : t.flavour = flavour
    · have hlen := ht.round_eq
      rw [hf] at hlen
      rw [if_pos hf, ← hlen]
      exact hround
    · rw [if_neg hf]
      exact ht.le flavour
  · exact fun h => by cases h
  · intro hf
    have hf : t.flavour = .fair := hf
    simp [hf, ht.later hf]
  · intro hf hlt
    have hf : t.flavour = .fifo := hf
    simp only [hf, reduceCtorEq, if_false, List.append_nil] at hlt
    exact absurd (hc.symm.trans (ht.short hf hlt).1) Bool.false_ne_true
  · exact fun _ h => by cases h

theorem Step.counted (h : t.Step move t') (ht : t.Counted) : t'.Counted := by
  cases h with
  | idles => exact ht
  | opens hs hr => exact { ht with busy := fun _ => hr, ended := fun _ h => by cases h }
  | begins hs => exact ht.goes_on _ _ (by simp [hs, Stage.isBusy]) (by simp)
  | turns turn hs => exact ht.goes_on _ _ (by simp [hs, Stage.isBusy]) (by simp)
  | ends hs => exact ht.goes_on _ _ (by simp [hs, Stage.isBusy]) (by simp)
  | withdraws hs => exact ht.goes_on _ _ (by simp [hs, Stage.isBusy]) (by simp)
  | keeps hs hc => exact keep_eq t _ ▸ ht.keeps _ (by simp [hs, Stage.isBusy]) hc
  | switches hq hf => exact ht.switches hq hf
  | concludes hq hf => exact ht.concludes hq hf _
  | cancels => exact { ht with short := fun hf hlt => ⟨rfl, (ht.short hf hlt).2⟩ }
  | silences =>
    refine ht.goes_on _ _ ?_ ?_
    all_goals
      split
      · cases t.stage <;> simp [Stage.shutDown, Stage.isBusy]
      · simp

def Logged (t : Test) : Prop :=
  ∀ flavour, t.log.filter (finishes flavour) =
    (t.reports flavour).zipIdx.map fun e => finishedEvent flavour t.options.cycles e.2 e.1

theorem Quits.filter_eq (hq : t.Quits log) (flavour : Flavour) :
    log.filter (finishes flavour) = t.log.filter (finishes flavour) := by
  cases hq with
  | interrupted => simp [emit, finishes]
  | _ => rfl

theorem finishes_finishedEvent (flavour flavour' : Flavour) (cycles round : Nat)
    (report : RoundReport) :
    finishes flavour (finishedEvent flavour' cycles round report) =
      decide (flavour' = flavour) := by
  cases flavour <;> cases flavour' <;> simp [finishes, finishedEvent, flavourName]

theorem Step.logged (h : t.Step move t') (hn : t.Counted) (ht : t.Logged) : t'.Logged := by
  intro flavour
  cases h with
  | @keeps work hs hc =>
    have hreports := reports_keep t work.report
    rw [keep_eq] at hreports
    rw [hreports, List.filter_append, ht flavour, List.zipIdx_append, List.map_append]
    refine congrArg (_ ++ ·) ?_
    by_cases hf : t.flavour = flavour
    · have hround := hn.round_eq
      rw [hf] at hround
      simp [finishes_finishedEvent, hf, hround]
    · simp [finishes_finishedEvent, hf]
  | switches hq => exact (hq.filter_eq flavour).trans (ht flavour)
  | concludes hq =>
    refine Eq.trans ?_ ((hq.filter_eq flavour).trans (ht flavour))
    simp [emit, finishes]
  | _ => exact ht flavour

section Start
variable (p : Profile) (o : Options)

theorem faithful_start : Faithful p o { profile := p, options := o } where
  profile_eq := rfl
  options_eq := rfl
  intact _ := trivial
  silent _ := rfl
  complete flavour report hm := by cases flavour <;> cases hm

theorem heeds_start : Heeds 0 { profile := p, options := o } where
  flag h := absurd h (Nat.lt_irrefl 0)
  pending := Nat.le_refl 0
  published h := absurd rfl h
  down h := absurd h (Nat.lt_irrefl 0)

theorem counted_start : Counted { profile := p, options := o } where
  round_eq := rfl
  le flavour := by cases flavour <;> exact Nat.zero_le _
  busy h := by cases h
  later _ := rfl
  short h := by cases h
  ended _ h := by cases h

theorem logged_start : Logged { profile := p, options := o } := by
  intro flavour
  cases flavour <;> rfl

end Start

theorem comparison?_of_ended {cancelled : Bool} (hs : t.stage = .ended cancelled)
    (startedAt : Moment) : ∃ c, t.comparison? startedAt = some c ∧ c.fair = t.fair := by
  rw [comparison?, hs]
  exact ⟨_, rfl, rfl⟩

/-- Whenever a test is cancelled, and however often: it reports complete rounds only, each of which
has processed every key as often as was asked for. A round whose flag is tested afterwards is not
drained, and one that was begun before has its queue shut down by the time that a caller comes back.
A test that is not reported as cancelled has made every round, and one that has not made every fair
round has made no other. Each report was logged, and nothing else was logged as one. -/
theorem cancelled_at_any_time {items : List (String × Nat)} {p : Profile}
    (hp : Profile.ofList items = .ok p) (o : Options) (hcycles : 1 ≤ o.cycles)
    (moves : List Move) :
    let t := run moves { profile := p, options := o }
    (∀ flavour, ∀ report ∈ t.reports flavour, report.processed = ⟨p.keys.map (·, o.cycles)⟩ ∧
        ∃ turns, let work := (fresh p o flavour).run turns
          work.isOver = true ∧ report = work.report) ∧
      (.cancel ∈ moves → t.stage.isDraining = false →
        ∀ moves', (t.run moves').stage.isDraining = false) ∧
      (t.cancelling < moves.count .cancel → ∀ work,
        t.stage = .draining work ∨ t.stage = .withdrawing work →
          work.monitor.queue.shuttingDown = true) ∧
      (∀ startedAt c, t.comparison? startedAt = some c →
        (c.cancelled = false → c.fair.length = o.rounds ∧ c.fifo.length = o.rounds) ∧
          (c.fair.length < o.rounds → c.fifo = [] ∧ c.cancelled = true)) ∧
      ∀ flavour, t.log.filter (finishes flavour) =
        (t.reports flavour).zipIdx.map fun e => finishedEvent flavour o.cycles e.2 e.1 := by
  intro t
  have hvalid := Profile.valid_of_ofList hp
  have hfaithful : t.Faithful p o :=
    run_induction (fun _ _ _ ht h => h.faithful ht) moves (faithful_start p o)
  have hheeds := heeds_run moves (heeds_start p o)
  rw [Nat.zero_add] at hheeds
  have ⟨hcounted, hlogged⟩ : t.Counted ∧ t.Logged :=
    run_induction (P := fun t => t.Counted ∧ t.Logged)
      (fun _ _ _ ht h => ⟨h.counted ht.1, h.logged ht.1 ht.2⟩) moves
      ⟨counted_start p o, logged_start p o⟩
  have hoptions : t.options = o := hfaithful.options_eq
  refine ⟨fun flavour report hm => ?_, fun hm hd moves' => ?_, fun hn work hw => ?_,
    fun startedAt c hc => ?_, fun flavour => hoptions ▸ hlogged flavour⟩
  · obtain ⟨work, hw, rfl⟩ := hfaithful.complete flavour report hm
    refine ⟨hw.counts_eq hvalid hcycles, ?_⟩
    obtain ⟨turns, rfl, ho⟩ := hw
    exact ⟨turns, ho, rfl⟩
  · have hflag : t.cancelled = true := hheeds.flag (List.count_pos_iff.2 hm)
    exact (run_induction (P := fun t => t.cancelled = true ∧ t.stage.isDraining = false)
      (fun _ _ _ ht h => ⟨h.cancelled ht.1, h.isDraining ht.1 ht.2⟩) moves' ⟨hflag, hd⟩).2
  · refine hheeds.down hn work ?_
    cases hw with
    | inl hw => rw [hw]; rfl
    | inr hw => rw [hw]; rfl
  · unfold comparison? at hc
    split at hc
    · next cancelled hs =>
      cases hc
      obtain ⟨hf, hended⟩ := hcounted.ended cancelled hs
      have hshort := hcounted.short hf
      rw [hoptions] at hended hshort
      refine ⟨hended, fun hlt => ⟨(hshort hlt).2, ?_⟩⟩
      by_contra hne
      have hlen := (hended (Bool.not_eq_true _ ▸ hne)).1
      exact absurd hlt (hlen ▸ Nat.lt_irrefl _)
    · cases hc

/-- A test that is cancelled in the second fair round: that round is given up, and no other is
made. -/
theorem cancelled_in_second_round :
    let p : Profile := ⟨⟨[("a/1", 0)]⟩⟩
    let o : Options := { rounds := 2, cycles := 1, workers := 1 }
    let round := [.proceed, .proceed, .within .adder, .within (.worker 0), .within (.worker 0),
      .within (.worker 0), .within (.worker 0), .proceed, .proceed, .proceed]
    let moves : List Move := round ++ [.proceed, .proceed, .within .adder, .cancel, .silence]
    let later : List Move :=
      [.within (.worker 0), .proceed, .proceed, .proceed, .proceed, .proceed]
    let t := run moves { profile := p, options := o }
    let ended := run (moves ++ later) { profile := p, options := o }
    Profile.ofList [("a/1", 0)] = .ok p ∧ 1 ≤ o.cycles ∧ t.fair.length = 1 ∧
      t.stage.isDraining = true ∧
      (∀ work, t.stage = .draining work → work.monitor.queue.shuttingDown = true) ∧
      (∀ moves', (ended.run moves').stage.isDraining = false) ∧
      (∀ report ∈ ended.fair, report.processed = ⟨[("a/1", 1)]⟩) ∧
      ∀ startedAt, ∃ c, ended.comparison? startedAt = some c ∧ c.fair.length = 1 ∧
        c.fifo = [] ∧ c.cancelled = true := by
  intro p o round moves later t ended
  have hp : Profile.ofList [("a/1", 0)] = .ok p := rfl
  have hcycles : 1 ≤ o.cycles := Nat.le_refl 1
  have hlen : t.fair.length = 1 := by decide
  have hback : t.cancelling < moves.count .cancel := by decide
  have hstage : t.stage.isDraining = true := by decide
  obtain ⟨-, -, hdown, -⟩ := cancelled_at_any_time hp o hcycles moves
  obtain ⟨hreports, hnone, -, hcomparison, -⟩ :=
    cancelled_at_any_time hp o hcycles (moves ++ later)
  have hended : ended.stage = .ended true := by
    unfold ended moves later round o p
    rfl
  have hone : ended.fair.length = 1 := by decide
  have hover : ended.stage.isDraining = false := by decide
  have hcancel : .cancel ∈ moves ++ later := by decide
  have hidle : ∀ moves', (ended.run moves').stage.isDraining = false := hnone hcancel hover
  have hprocessed : ∀ report ∈ ended.fair, report.processed = ⟨[("a/1", 1)]⟩ := fun report hm =>
    (hreports .fair report hm).1
  have hshut : ∀ work, t.stage = .draining work → work.monitor.queue.shuttingDown = true :=
    fun work hw => hdown hback work (.inl hw)
  refine ⟨hp, hcycles, hlen, hstage, hshut, hidle, hprocessed, fun startedAt => ?_⟩
  obtain ⟨c, hc, hfair⟩ := comparison?_of_ended hended startedAt
  have hfair : c.fair.length = 1 := by rw [hfair, hone]
  have hshort : c.fair.length < o.rounds := by
    rw [hfair]
    decide
  obtain ⟨hfifo, hcancelled⟩ := (hcomparison startedAt c hc).2 hshort
  exact ⟨c, hc, hfair, hfifo, hcancelled⟩

end Test

end TenantQueue.LoadTest
