import Std.Time.DateTime.Timestamp
import TenantQueue.CommandLine.Run
import TenantQueue.LoadTest.Rehearsal

/-! The load test command on a real clock. The work on an item is to wait, so one thread can play
all the workers: it makes the move that is due, and sleeps when nothing is. -/
namespace TenantQueue.CommandLine
open Text LoadTest

def environmentOf (names : List String) : IO Environment := do
  let values ← names.mapM fun name => return (name, ← IO.getEnv name)
  return values.filterMap fun (name, value) => value.map fun value => (name, .ofString value)

def contentOf (path : RawText) : IO FileContent := do
  try
    return .bytes (← IO.FS.readBinFile path.lossy).toList
  catch
    | .noFileOrDirectory .. => return .missing
    | .inappropriateType .. => return .directory
    | e => return .unreadable (toString e)

def dotenv : IO String := do
  let depth := (← IO.currentDir).components.length
  for n in List.range depth do
    let path := String.join (List.replicate n "../") ++ ".env"
    if let .bytes content ← contentOf (.ofString path) then
      return (RawText.text? ⟨content⟩).getD ""
  return ""

def wholeEnvironment : IO (Option Environment) := do
  let content ← dotenv
  let names := ["FAIRQ_WORKERS", "LOG_LEVEL", "OTEL_ENDPOINT", "RUST_LOG"]
  return Dotenv.load? (← environmentOf (names ++ Dotenv.mentioned content.toList)) content

def moment : IO Moment := do
  let nanos := (← Std.Time.Timestamp.now).toNanosecondsSinceUnixEpoch.val
  return ⟨nanos / 1000000000, (nanos % 1000000000).toNat⟩

/-- Goes on with a test whose clock was last moved on at the time `since`. -/
partial def live (t : Test) (since : Nat) : IO Test := do
  let now ← IO.monoNanosNow
  let t := t.step (.within (.tick (now - since)))
  match t.next? with
  | none => return t
  | some (.within (.tick n)) =>
    IO.sleep (n / 1000000 + 1).toUInt32
    live t now
  | some move => live (t.step move) now

def command (arguments : List String) : IO Exit := do
  match prepare (← wholeEnvironment) (arguments.map RawText.ofString) with
  | .error exit => return exit
  | .ok prepared =>
    let content ← (prepared.arguments.profile.mapM contentOf)
    match prepared.test fun _ => content.getD .missing with
    | .error exit => return exit
    | .ok test =>
      let startedAt ← moment
      match (← live test (← IO.monoNanosNow)).comparison? startedAt with
      | some c => return .ofComparison prepared.arguments.json c
      | none => return { code := 1 }

end TenantQueue.CommandLine

def main (arguments : List String) : IO UInt32 := do
  let exit ← TenantQueue.CommandLine.command arguments
  IO.print exit.output
  if let some complaint := exit.complaint then IO.eprintln complaint
  return exit.code.toUInt32
