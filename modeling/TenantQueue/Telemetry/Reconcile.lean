import TenantQueue.Telemetry.Event

/-! The span around the work on one item, and the event that tells how the work ended. -/
namespace TenantQueue.Telemetry

structure Reconcile where
  queue : String
  key : String
  requeued : Option Bool := none
  deriving DecidableEq, Repr

namespace Reconcile

def span (r : Reconcile) : Span where
  name := "reconcile"
  fields := [("reconcile.queue", .text r.queue), ("reconcile.key", .text r.key)] ++
    (r.requeued.map fun b => ("reconcile.requeued", Value.flag b)).toList

def record (r : Reconcile) (requeued : Bool) : Reconcile × Event :=
  let r := { r with requeued := some requeued }
  (r, { level := .debug, message := "reconcile finished",
        fields := [("requeued", .flag requeued)], span := some r.span })

end Reconcile

end TenantQueue.Telemetry
