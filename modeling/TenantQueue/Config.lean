import TenantQueue.Environment
import TenantQueue.Error
import TenantQueue.Text.Blank
import TenantQueue.Text.Numeral

/-! Settings from the environment, read once at the start. -/
namespace TenantQueue
open Text

def defaultWorkers : Nat := 3

structure Config where
  /-- Where metrics are sent, if anywhere. -/
  endpoint : Option String
  logLevel : String
  workers : Nat
  deriving DecidableEq, Repr

def Error.workersNotPositive (raw : String) : Error :=
  .config ("FAIRQ_WORKERS must be a positive integer, got " ++ quoted raw)

namespace Config

/-- Blanks around the number are ignored, but the error shows them. -/
def readWorkers (raw : String) : Except Error Nat :=
  match readUnsigned wordLimit (trim raw.toList) with
  | .ok n => if n = 0 then .error (.workersNotPositive raw) else .ok n
  | .error _ => .error (.workersNotPositive raw)

def ofEnvironment (env : Environment) : Except Error Config := do
  let workers ← match env.text? "FAIRQ_WORKERS" with
    | some raw => readWorkers raw
    | none => .ok defaultWorkers
  return { endpoint := env.text? "OTEL_ENDPOINT"
           logLevel := (env.text? "LOG_LEVEL").getD "info"
           workers }

end Config

end TenantQueue
