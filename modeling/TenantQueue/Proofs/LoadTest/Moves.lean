import TenantQueue.LoadTest.Test
import TenantQueue.Proofs.LoadTest.Steps

/-! What a move of a load test can do. Whatever holds of every reachable test is shown by cases on its
steps. -/
namespace TenantQueue.LoadTest
open Queue Telemetry

def finishedEvent (flavour : Flavour) (cycles round : Nat) (report : RoundReport) : Event where
  level := .info
  message := "round finished"
  fields := [("flavour", .text (flavourName flavour)), ("round", .number round),
    ("cycles", .number cycles), ("elapsed_secs", .measure report.elapsed)]

namespace Test

def reports (t : Test) : Flavour → List RoundReport
  | .fair => t.fair
  | .fifo => t.fifo

inductive Quits (t : Test) : List Event → Prop where
  | full (hs : t.stage = .opening) (hr : t.options.rounds ≤ t.round) : t.Quits t.log
  | warned {queue : WorkQueue String} (hs : t.stage = .testing queue) (hc : t.cancelled = true) :
    t.Quits t.log
  | interrupted {work : Round} (hs : t.stage = .judging work) (hc : t.cancelled = true) :
    t.Quits (t.emit .warn "round interrupted, discarding"
      [("flavour", .text (flavourName t.flavour)), ("round", .number t.round)]).log

inductive Step (t : Test) : Move → Test → Prop where
  | idles {move : Move} (hm : move ≠ .cancel) : t.Step move t
  | opens (hs : t.stage = .opening) (hr : t.round < t.options.rounds) :
    t.Step .proceed
      { t with stage := .testing (.empty t.flavour ("loadtest-" ++ flavourName t.flavour))
               published := true }
  | begins {queue : WorkQueue String} (hs : t.stage = .testing queue) (hc : t.cancelled = false) :
    t.Step .proceed
      { t with stage := .draining (.start queue t.profile t.options.cycles t.options.workers) }
  | turns {work : Round} (turn : Turn) (hs : t.stage = .draining work) :
    t.Step (.within turn) { t with stage := .draining (work.step turn) }
  | ends {work : Round} (hs : t.stage = .draining work) (ho : work.isOver = true) :
    t.Step .proceed { t with stage := .withdrawing work }
  | withdraws {work : Round} (hs : t.stage = .withdrawing work) :
    t.Step .proceed { t with stage := .judging work, published := false }
  | keeps {work : Round} (hs : t.stage = .judging work) (hc : t.cancelled = false) :
    t.Step .proceed
      { t with round := t.round + 1
               stage := .opening
               fair := t.fair ++ if t.flavour = .fair then [work.report] else []
               fifo := t.fifo ++ if t.flavour = .fifo then [work.report] else []
               log := t.log ++ [finishedEvent t.flavour t.options.cycles t.round work.report] }
  | switches {log : List Event} (hq : t.Quits log) (hf : t.flavour = .fair) :
    t.Step .proceed { t with flavour := .fifo, round := 0, stage := .opening, log }
  | concludes {log : List Event} (hq : t.Quits log) (hf : t.flavour = .fifo)
      (fields : List (String × Value)) :
    t.Step .proceed
      ({ t with stage := .ended t.cancelled, log }.emit .info "load test finished" fields)
  | cancels : t.Step .cancel { t with cancelled := true, cancelling := t.cancelling + 1 }
  | silences (hn : t.cancelling ≠ 0) :
    t.Step .silence
      { t with cancelling := t.cancelling - 1
               stage := if t.published then Stage.shutDown t.stage else t.stage }

variable {t t' : Test} {move : Move} {log : List Event}

theorem Quits.leave (hq : t.Quits log) : t.Step .proceed { t with log }.leave := by
  unfold Test.leave
  split
  · next hf => exact .switches hq hf
  · next hf => exact .concludes hq hf _

theorem keep_eq (t : Test) (report : RoundReport) :
    t.keep report =
      { t with round := t.round + 1
               stage := .opening
               fair := t.fair ++ if t.flavour = .fair then [report] else []
               fifo := t.fifo ++ if t.flavour = .fifo then [report] else []
               log := t.log ++ [finishedEvent t.flavour t.options.cycles t.round report] } := by
  cases hf : t.flavour with
  | fair => simp [keep, emit, hf, finishedEvent]
  | fifo => simp [keep, emit, hf, finishedEvent]

theorem reports_keep (t : Test) (report : RoundReport) (flavour : Flavour) :
    (t.keep report).reports flavour =
      t.reports flavour ++ if t.flavour = flavour then [report] else [] := by
  rw [keep_eq]
  cases flavour <;> rfl

theorem step_proceed (t : Test) : t.Step .proceed t.proceed := by
  unfold proceed
  split
  · next hs =>
    split
    · next hr => exact .opens hs hr
    · next hr => exact (Quits.full hs (Nat.not_lt.1 hr)).leave
  · next hs =>
    split
    · next hc => exact (Quits.warned hs hc).leave
    · next hc => exact .begins hs (Bool.not_eq_true _ ▸ hc)
  · next hs =>
    split
    · next ho => exact .ends hs ho
    · exact .idles (by simp)
  · next hs => exact .withdraws hs
  · next hs =>
    split
    · next hc => exact (Quits.interrupted hs hc).leave
    · next hc =>
      rw [keep_eq]
      exact .keeps hs (Bool.not_eq_true _ ▸ hc)
  · exact .idles (by simp)

theorem step_spec (t : Test) (move : Move) : t.Step move (t.step move) := by
  cases move with
  | proceed => exact step_proceed t
  | within turn =>
    simp only [step]
    split
    · next hs => exact .turns turn hs
    · exact .idles (by simp)
  | cancel => exact .cancels
  | silence =>
    simp only [step]
    split
    · exact .idles (by simp)
    · next hn => exact .silences hn

/-- What a step keeps, a run keeps. -/
theorem run_induction {P : Test → Prop} (hstep : ∀ t move t', P t → Step t move t' → P t')
    (moves : List Move) (h : P t) : P (t.run moves) := by
  induction moves generalizing t with
  | nil => exact h
  | cons move moves ih => exact ih (hstep t move _ h (step_spec t move))

theorem Step.profile_eq (h : t.Step move t') : t'.profile = t.profile := by
  cases h <;> rfl

theorem Step.options_eq (h : t.Step move t') : t'.options = t.options := by
  cases h <;> rfl

/-- A report is added to those of the present flavour, when a round was judged and the flag is not
set; nothing else touches the reports. -/
theorem Step.reports_cases (h : t.Step move t') :
    t'.reports = t.reports ∨
      ∃ work, t.stage = .judging work ∧ t.cancelled = false ∧
        ∀ flavour, t'.reports flavour =
          t.reports flavour ++ if t.flavour = flavour then [work.report] else [] := by
  cases h with
  | keeps hs hc => exact .inr ⟨_, hs, hc, keep_eq t _ ▸ reports_keep t _⟩
  | _ => exact .inl (funext fun flavour => by cases flavour <;> rfl)

end Test

end TenantQueue.LoadTest
