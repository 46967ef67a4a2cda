import TenantQueue.Telemetry.Event
import TenantQueue.Telemetry.Meter

/-! What a call on a queue does besides changing the queue. -/
namespace TenantQueue.Queue
open Telemetry

inductive Signal where
  | none
  | one
  /-- One consumer, but only once the lock is released. -/
  | oneUnlocked
  | all
  deriving DecidableEq, Repr

structure Effects where
  counts : List Counter := []
  events : List Event := []
  signal : Signal := .none
  deriving Repr

inductive Taken (α : Type) where
  | item (x : α)
  /-- The queue is shutting down. -/
  | closed
  /-- Nothing is waiting; the consumer has to wait. -/
  | blocked
  deriving DecidableEq, Repr

end TenantQueue.Queue
