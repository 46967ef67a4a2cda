import TenantQueue.Calendar
import TenantQueue.Keyed
import TenantQueue.LoadTest.Options

/-! The outcome of a load test, as text for people and as JSON. -/
namespace TenantQueue.LoadTest
open Json

structure RoundReport where
  /-- In seconds. -/
  elapsed : Float
  /-- How often each item was processed. -/
  processed : Keyed Nat
  deriving Repr

structure Comparison where
  startedAt : Moment
  options : Options
  fair : List RoundReport
  fifo : List RoundReport
  /-- In seconds, over the rounds that were finished. -/
  fairAverage : Float
  fifoAverage : Float
  /-- By how many percent of its time the fair queue is faster. -/
  speedup : Float
  /-- The test was cut short. -/
  cancelled : Bool
  deriving Repr

def RoundReport.json (r : RoundReport) : Value :=
  .object [("elapsed_secs", .number r.elapsed),
    ("processed", .object (r.processed.entries.map fun entry => (entry.1, .integer entry.2)))]

namespace Comparison

def json (c : Comparison) : Value :=
  .object [("started_at", .text c.startedAt.text), ("options", c.options.json),
    ("fair", .array (c.fair.map RoundReport.json)), ("fifo", .array (c.fifo.map RoundReport.json)),
    ("fair_avg_secs", .number c.fairAverage), ("fifo_avg_secs", .number c.fifoAverage),
    ("speedup_pct", .number c.speedup), ("cancelled", .boolean c.cancelled)]

def seconds (x : Float) : String := Decimal.fixed 3 x ++ "s"

def flavourLines (name : String) (cycles : Nat) (reports : List RoundReport) (average : Float) :
    List String :=
  (reports.zipIdx.map fun (r, round) =>
    name ++ ", asymmetric load round " ++ toString round ++ " for " ++ toString cycles ++
      " cycles took: " ++ seconds r.elapsed) ++
  ["======> " ++ name ++ " average: " ++ seconds average]

def lines (c : Comparison) : List String :=
  flavourLines "FairQ" c.options.cycles c.fair c.fairAverage ++
  flavourLines "FifoQ" c.options.cycles c.fifo c.fifoAverage ++
  ["Comparison: FairQ " ++ seconds c.fairAverage ++ "  FifoQ " ++ seconds c.fifoAverage ++
    "  speedup " ++ Decimal.fixed 1 c.speedup ++ "%"] ++
  if c.cancelled then ["(interrupted: averages cover completed rounds only)"] else []

def text (c : Comparison) : String := String.join (c.lines.map (· ++ "\n"))

end Comparison

end TenantQueue.LoadTest
