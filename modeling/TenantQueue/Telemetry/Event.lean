/-! Log events: a level, a message and named fields, perhaps within a span. -/
namespace TenantQueue.Telemetry

inductive Level where
  | trace | debug | info | warn | error
  deriving DecidableEq, Repr

inductive Value where
  | text (s : String)
  | number (n : Nat)
  | flag (b : Bool)
  | measure (x : Float)
  deriving Repr

structure Span where
  name : String
  fields : List (String × Value)
  deriving Repr

structure Event where
  level : Level
  message : String
  fields : List (String × Value)
  span : Option Span := none
  deriving Repr

end TenantQueue.Telemetry
