import TenantQueue.LoadTest.Report
import TenantQueue.LoadTest.Schedule

/-! A load test: rounds on fair queues, then as many on plain ones, each on a fresh queue. Other
threads may cancel it at any time. They set a flag first and then shut down the queue that is
published at that time; the test publishes a queue first and then looks at the flag, so that a
cancelled round is either not begun or cut short. -/
namespace TenantQueue.LoadTest
open Queue Telemetry

inductive Stage where
  /-- A queue for the next round is about to be published. -/
  | opening
  | testing (queue : WorkQueue String)
  | draining (work : Round)
  /-- The round has come to its end, and its queue is about to be withdrawn. -/
  | withdrawing (work : Round)
  | judging (work : Round)
  /-- The flag as the test saw it last. -/
  | ended (cancelled : Bool)
  deriving Repr

structure Test where
  profile : Profile
  options : Options
  flavour : Flavour := .fair
  round : Nat := 0
  stage : Stage := .opening
  /-- The queue of the present round is where those who cancel look for it. -/
  published : Bool := false
  cancelled : Bool := false
  /-- Those who have set the flag and not looked for a queue yet. -/
  cancelling : Nat := 0
  fair : List RoundReport := []
  fifo : List RoundReport := []
  log : List Event := []
  deriving Repr

inductive Move where
  | proceed
  | within (turn : Turn)
  | cancel
  | silence
  deriving DecidableEq, Repr

def flavourName : Flavour → String
  | .fair => "fair"
  | .fifo => "fifo"

def seconds (nanoseconds : Nat) : Float :=
  Float.ofNat (nanoseconds / 1000000000) + Float.ofNat (nanoseconds % 1000000000) / 1000000000

def average (reports : List RoundReport) : Float :=
  if reports.isEmpty then 0
  else (reports.foldl (fun sum r => sum + r.elapsed) 0) / Float.ofNat reports.length

def speedup (fair fifo : Float) : Float := if fifo > 0 then (fifo - fair) / fifo * 100 else 0

def Round.report (r : Round) : RoundReport := ⟨seconds r.now, r.counts⟩

namespace Test

def fairAverage (t : Test) : Float := average t.fair

def fifoAverage (t : Test) : Float := average t.fifo

def emit (t : Test) (level : Level) (message : String) (fields : List (String × Value)) : Test :=
  { t with log := t.log ++ [{ level, message, fields }] }

def leave (t : Test) : Test :=
  match t.flavour with
  | .fair => { t with flavour := .fifo, round := 0, stage := .opening }
  | .fifo =>
    { t with stage := .ended t.cancelled }.emit .info "load test finished"
      [("fair_avg_secs", .measure t.fairAverage), ("fifo_avg_secs", .measure t.fifoAverage),
        ("speedup_pct", .measure (speedup t.fairAverage t.fifoAverage))]

def keep (t : Test) (report : RoundReport) : Test :=
  let t := t.emit .info "round finished"
    [("flavour", .text (flavourName t.flavour)), ("round", .number t.round),
      ("cycles", .number t.options.cycles), ("elapsed_secs", .measure report.elapsed)]
  match t.flavour with
  | .fair => { t with round := t.round + 1, stage := .opening, fair := t.fair ++ [report] }
  | .fifo => { t with round := t.round + 1, stage := .opening, fifo := t.fifo ++ [report] }

def proceed (t : Test) : Test :=
  match t.stage with
  | .opening =>
    if t.round < t.options.rounds then
      { t with stage := .testing (.empty t.flavour ("loadtest-" ++ flavourName t.flavour)),
               published := true }
    else t.leave
  | .testing queue =>
    if t.cancelled then t.leave
    else
      { t with stage := .draining (.start queue t.profile t.options.cycles t.options.workers) }
  | .draining work => if work.isOver then { t with stage := .withdrawing work } else t
  | .withdrawing work => { t with stage := .judging work, published := false }
  | .judging work =>
    if t.cancelled then
      (t.emit .warn "round interrupted, discarding"
        [("flavour", .text (flavourName t.flavour)), ("round", .number t.round)]).leave
    else t.keep work.report
  | .ended _ => t

def Stage.shutDown : Stage → Stage
  | .testing queue => .testing queue.shutDown.1
  | .draining work => .draining work.shutDown
  | .withdrawing work => .withdrawing work.shutDown
  | stage => stage

def step : Move → Test → Test
  | .proceed, t => t.proceed
  | .within turn, t =>
    match t.stage with
    | .draining work => { t with stage := .draining (work.step turn) }
    | _ => t
  | .cancel, t => { t with cancelled := true, cancelling := t.cancelling + 1 }
  | .silence, t =>
    if t.cancelling = 0 then t
    else
      { t with cancelling := t.cancelling - 1
               stage := if t.published then Stage.shutDown t.stage else t.stage }

def run (moves : List Move) (t : Test) : Test := moves.foldl (fun t move => t.step move) t

theorem run_append (moves moves' : List Move) (t : Test) :
    t.run (moves ++ moves') = (t.run moves).run moves' := List.foldl_append

def comparison? (t : Test) (startedAt : Moment) : Option Comparison :=
  match t.stage with
  | .ended cancelled =>
    some { startedAt, options := t.options, fair := t.fair, fifo := t.fifo,
           fairAverage := t.fairAverage, fifoAverage := t.fifoAverage,
           speedup := speedup t.fairAverage t.fifoAverage, cancelled }
  | _ => none

end Test

end TenantQueue.LoadTest
