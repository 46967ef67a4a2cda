import TenantQueue.Text.Quoted

/-! What can go wrong outside the queues, and its wording. Operations on queues never fail. -/
namespace TenantQueue
open Text

inductive Error where
  | invalidKey (key reason : String)
  | config (detail : String)
  | profile (detail : String)
  | io (detail : String)
  | telemetry (detail : String)
  deriving DecidableEq, Repr

namespace Error

def message : Error → String
  | invalidKey key reason => "invalid key " ++ quoted key ++ ": " ++ reason
  | config detail => "configuration error: " ++ detail
  | profile detail => "load profile error: " ++ detail
  | io detail => "io error: " ++ detail
  | telemetry detail => "telemetry error: " ++ detail

def debug : Error → String
  | invalidKey key reason =>
    "InvalidKey \x7b key: " ++ quoted key ++ ", reason: " ++ quoted reason ++ " \x7d"
  | config detail => "Config(" ++ quoted detail ++ ")"
  | profile detail => "Profile(" ++ quoted detail ++ ")"
  | io detail => "Io(Custom \x7b kind: Other, error: " ++ quoted detail ++ " \x7d)"
  | telemetry detail => "Telemetry(" ++ quoted detail ++ ")"

end Error

end TenantQueue
