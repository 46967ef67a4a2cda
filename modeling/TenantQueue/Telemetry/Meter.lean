/-! Counters of queue activity. A total belongs to a counter and a queue's name, so queues of one
name share their totals. -/
namespace TenantQueue.Telemetry

inductive Counter where
  | adds | gets | requeues | dropped
  deriving DecidableEq, Repr

def Counter.name : Counter → String
  | .adds => "fairq.queue.adds"
  | .gets => "fairq.queue.gets"
  | .requeues => "fairq.queue.requeues"
  | .dropped => "fairq.queue.dropped"

structure Meter where
  totals : List ((Counter × String) × Nat) := []
  deriving DecidableEq, Repr

namespace Meter

def raise (series : Counter × String) :
    List ((Counter × String) × Nat) → List ((Counter × String) × Nat)
  | [] => [(series, 1)]
  | entry :: rest =>
    if entry.1 = series then (series, entry.2 + 1) :: rest else entry :: raise series rest

def record (m : Meter) (queue : String) (counter : Counter) : Meter :=
  ⟨raise (counter, queue) m.totals⟩

def recordAll (m : Meter) (queue : String) (counters : List Counter) : Meter :=
  counters.foldl (fun m counter => m.record queue counter) m

def total (m : Meter) (queue : String) (counter : Counter) : Nat :=
  (m.totals.lookup (counter, queue)).getD 0

theorem lookup_cons_ite {κ ν : Type} [BEq κ] [LawfulBEq κ] [DecidableEq κ] (key k : κ) (v : ν)
    (rest : List (κ × ν)) :
    ((k, v) :: rest).lookup key = if key = k then some v else rest.lookup key := by
  rw [List.lookup_cons]
  by_cases h : key = k
  · simp [h]
  · have : (key == k) = false := by simpa using h
    simp [h, this]

theorem lookup_raise (s series : Counter × String) (l : List ((Counter × String) × Nat)) :
    ((raise series l).lookup s).getD 0 = (l.lookup s).getD 0 + if s = series then 1 else 0 := by
  induction l with
  | nil => simp only [raise, lookup_cons_ite, List.lookup_nil]; split <;> simp
  | cons entry rest ih =>
    obtain ⟨key, n⟩ := entry
    by_cases h : key = series
    · subst h
      simp only [raise, if_true, lookup_cons_ite]
      split <;> simp
    · simp only [raise, h, if_false, lookup_cons_ite]
      by_cases h' : s = key
      · simp [h', h]
      · simpa [h'] using ih

/-- Recording raises the total of its own series, and no other. -/
theorem total_record (m : Meter) (queue queue' : String) (counter counter' : Counter) :
    (m.record queue counter).total queue' counter' =
      m.total queue' counter' + if counter' = counter ∧ queue' = queue then 1 else 0 := by
  simp [total, record, lookup_raise]

def report (m : Meter) : List (String × String × Nat) :=
  let rows := m.totals.map fun entry => (entry.1.1.name, "queue=" ++ entry.1.2, entry.2)
  rows.mergeSort fun a b => a.1 < b.1 || (a.1 == b.1 && a.2.1 ≤ b.2.1)

end Meter

end TenantQueue.Telemetry
