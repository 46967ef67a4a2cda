import TenantQueue.LoadTest.Round
import TenantQueue.Proofs.Queue.Wakeup

/-! What a turn of a round can do. Whatever holds of every reachable round is shown by cases on its
steps; which key was handed out in a turn is part of the step. -/
namespace TenantQueue.Queue.Taken
variable {α : Type}

def items : Taken α → List α
  | item x => [x]
  | _ => []

end TenantQueue.Queue.Taken

namespace TenantQueue.LoadTest
open Queue Telemetry

namespace Round

inductive Asks (r : Round) (i : Nat) : Monitor String → Prop where
  | anew (hw : r.workers[i]? = some .asking) : Asks r i r.monitor
  | again (hw : r.workers[i]? = some .parked) (hn : r.monitor.notified ≠ 0) :
    Asks r i { r.monitor with notified := r.monitor.notified - 1 }

def tally (r : Round) (key : String) : Round :=
  { r with counts := r.counts.alter key fun n => n.getD 0 + 1 }

inductive Step (r : Round) : List String → Round → Prop where
  | rests (now : Nat) : Step r [] { r with now }
  | delivers : Step r [] { r with monitor := r.monitor.deliver }
  | adds {key : String} {rest : List String} (hu : r.unadded = key :: rest) :
    Step r [] { r with unadded := rest, monitor := (r.monitor.add key).1 }
  | takes {i : Nat} {m : Monitor String} {key : String} (deadline : Nat) (ha : r.Asks i m)
    (hg : m.queue.get.1 = .item key) :
    Step r [key] ({ r with monitor := m.ask.2.1 }.become i (.working key deadline))
  | parks {i : Nat} {m : Monitor String} (ha : r.Asks i m) (hg : m.queue.get.1 = .blocked) :
    Step r [] ({ r with monitor := m.ask.2.1 }.become i .parked)
  | leaves {i : Nat} {m : Monitor String} (ha : r.Asks i m) (hg : m.queue.get.1 = .closed) :
    Step r [] ({ r with monitor := m.ask.2.1 }.become i .ended)
  | returns {i : Nat} {key : String} {deadline : Nat}
    (hw : r.workers[i]? = some (.working key deadline)) :
    Step r [] ({ r with monitor := (r.monitor.done key).1 }.become i (.counting key))
  | finds {i : Nat} {key : String} (hw : r.workers[i]? = some (.counting key))
    (hf : (r.tally key).finished = true) : Step r [] ((r.tally key).become i (.closing key))
  | repeats {i : Nat} {key : String} (hw : r.workers[i]? = some (.counting key))
    (hf : (r.tally key).finished = false) (hc : (r.tally key).count key < r.cycles) :
    Step r [] ((r.tally key).become i (.renewing key))
  | completes {i : Nat} {key : String} (hw : r.workers[i]? = some (.counting key))
    (hf : (r.tally key).finished = false) (hc : r.cycles ≤ (r.tally key).count key) :
    Step r [] (((r.tally key).record key false).become i .asking)
  | renews {i : Nat} {key : String} (hw : r.workers[i]? = some (.renewing key)) :
    Step r [] (({ r with monitor := (r.monitor.add key).1 }.record key true).become i .asking)
  | closes {i : Nat} {key : String} (hw : r.workers[i]? = some (.closing key)) :
    Step r [] ((r.record key false).shutDown.become i .ended)

def handsOut (r : Round) : Turn → List String
  | .worker i =>
    match r.workers[i]? with
    | some .asking => r.monitor.ask.1.items
    | some .parked => if r.monitor.notified = 0 then [] else r.monitor.askAgain.1.items
    | _ => []
  | _ => []

def handedOut : List Turn → Round → List String
  | [], _ => []
  | turn :: turns, r => r.handsOut turn ++ handedOut turns (r.step turn)

variable {r r' : Round} {i : Nat} {m : Monitor String}

theorem Asks.answered (ha : r.Asks i m) : r.Step m.ask.1.items (r.answered i m.ask) := by
  have hfst := m.ask_fst
  rcases hm : m.ask with ⟨x | _ | _, m', effects⟩
  · rw [hm] at hfst
    have h := Step.takes (r.now + nanoseconds (r.profile.duration x)) ha hfst.symm
    rwa [hm] at h
  · rw [hm] at hfst
    have h := Step.leaves ha hfst.symm
    rwa [hm] at h
  · rw [hm] at hfst
    have h := Step.parks ha hfst.symm
    rwa [hm] at h

theorem counted_eq (r : Round) (i : Nat) (key : String) :
    r.counted i key =
      if (r.tally key).finished then (r.tally key).become i (.closing key)
      else if (r.tally key).count key < r.cycles then (r.tally key).become i (.renewing key)
      else ((r.tally key).record key false).become i .asking := rfl

theorem Step.idle (r : Round) : r.Step [] r := Step.rests (r := r) r.now

theorem step_worker (r : Round) (i : Nat) : r.Step (r.handsOut (.worker i)) (r.workerStep i) := by
  simp only [workerStep, handsOut]
  cases hw : r.workers[i]? with
  | none => exact .idle r
  | some w =>
    cases w with
    | asking => exact (Asks.anew hw).answered
    | parked =>
      by_cases hn : r.monitor.notified = 0
      · simp only [hn, if_true]
        exact .idle r
      · simp only [hn, if_false]
        exact (Asks.again hw hn).answered
    | working key deadline =>
      by_cases hd : r.now < deadline
      · simp only [hd, if_true]
        exact .idle r
      · simp only [hd, if_false]
        exact .returns hw
    | counting key =>
      simp only [counted_eq]
      by_cases hf : (r.tally key).finished = true
      · rw [if_pos hf]
        exact .finds hw hf
      · rw [if_neg hf]
        rw [Bool.not_eq_true] at hf
        by_cases hc : (r.tally key).count key < r.cycles
        · rw [if_pos hc]
          exact .repeats hw hf hc
        · rw [if_neg hc]
          exact .completes hw hf (Nat.not_lt.1 hc)
    | renewing key => exact .renews hw
    | closing key => exact .closes hw
    | ended => exact .idle r

theorem step_spec (r : Round) (turn : Turn) : r.Step (r.handsOut turn) (r.step turn) := by
  cases turn with
  | worker i => exact step_worker r i
  | adder =>
    simp only [step]
    split
    · exact .idle r
    · next hu => exact .adds hu
  | signal => exact .delivers
  | tick n => exact .rests (r.now + n)

/-- What a step keeps, a run keeps. -/
theorem run_induction {P : Round → Prop}
    (hstep : ∀ r taken r', P r → Step r taken r' → P r') (turns : List Turn) (h : P r) :
    P (r.run turns) := by
  induction turns generalizing r with
  | nil => exact h
  | cons turn turns ih => exact ih (hstep r _ _ h (step_spec r turn))

theorem Step.profile_eq {taken : List String} (h : r.Step taken r') : r'.profile = r.profile := by
  cases h <;> rfl

theorem Step.cycles_eq {taken : List String} (h : r.Step taken r') : r'.cycles = r.cycles := by
  cases h <;> rfl

end Round

end TenantQueue.LoadTest
