import TenantQueue.CommandLine.Arguments
import TenantQueue.CommandLine.Dotenv
import TenantQueue.LoadTest.Test
import TenantQueue.Telemetry.Start

/-! The load test command: what it makes of its arguments and its environment, and what it writes.
The arguments come first, then the settings, the telemetry and last the profile; the first of them
that is at fault ends the command. -/
namespace TenantQueue.CommandLine
open Text LoadTest

structure Exit where
  code : Nat := 0
  output : String := ""
  /-- Without the end of the line. -/
  complaint : Option String := none
  deriving DecidableEq, Repr

def Exit.ofStop : Stop → Exit
  | .help => { output := Stop.help.message }
  | stop => { code := 2, complaint := some stop.message }

def Exit.ofError (e : Error) : Exit := { code := 1, complaint := some ("Error: " ++ e.message) }

def Exit.unprepared : Exit := { code := 101 }

def Exit.ofComparison (json : Bool) (c : Comparison) : Exit where
  output := if json then c.json.pretty ++ "\n" else c.text

structure Prepared where
  arguments : Arguments
  config : Config
  deriving DecidableEq, Repr

def prepare (env : Option Environment) (arguments : List RawText) : Except Exit Prepared := do
  let some env := env | .error Exit.unprepared
  let arguments ← (Arguments.read arguments).mapError Exit.ofStop
  let config ← (Config.ofEnvironment env).mapError Exit.ofError
  (Telemetry.start env config false).mapError Exit.ofError
  return { arguments, config }

namespace Prepared

/-- The workers of the arguments go before those of the environment. -/
def options (p : Prepared) : Options where
  rounds := p.arguments.rounds
  cycles := p.arguments.cycles
  workers := p.arguments.workers.getD p.config.workers

def profile (p : Prepared) (read : RawText → FileContent) : Except Exit Profile :=
  match p.arguments.profile with
  | none => .ok .standard
  | some path => (Profile.load (read path) (some path.lossy)).mapError Exit.ofError

def test (p : Prepared) (read : RawText → FileContent) : Except Exit Test :=
  (p.profile read).map fun profile => { profile, options := p.options }

end Prepared

end TenantQueue.CommandLine
