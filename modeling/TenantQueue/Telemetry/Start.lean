import TenantQueue.Config
import TenantQueue.Telemetry.Endpoint
import TenantQueue.Telemetry.Filter

/-! Setting up logs and metrics, and what can keep them from being set up. -/
namespace TenantQueue.Telemetry
open Text

def defaultEndpoint : String := "http://localhost:4317"

/-- A filter in the environment goes before the configured level, unless it is not valid. -/
def filterError? (env : Environment) (logLevel : String) : Option Error :=
  match (env.text? "RUST_LOG").map Filter.fault? with
  | some none => none
  | _ => (Filter.fault? logLevel).map fun fault =>
    .telemetry ("bad log level " ++ quoted logLevel ++ ": " ++ fault.message)

def endpointError? (endpoint : String) : Option Error :=
  let endpoint := if endpoint = "" then defaultEndpoint else endpoint
  (Endpoint.fault? endpoint).map fun fault =>
    .telemetry ("failed to create OTLP metric exporter: invalid URI " ++ endpoint ++ ". Reason " ++
      fault.message)

def alreadySet : Error :=
  .telemetry ("failed to init tracing subscriber: " ++
    "a global default trace dispatcher has already been set")

def start (env : Environment) (config : Config) (started : Bool) : Except Error Unit :=
  match filterError? env config.logLevel, config.endpoint.bind endpointError?, started with
  | some e, _, _ => .error e
  | none, some e, _ => .error e
  | none, none, true => .error alreadySet
  | none, none, false => .ok ()

end TenantQueue.Telemetry
