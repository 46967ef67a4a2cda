import TenantQueue.Proofs.LoadTest.Accounts

/-! The trail of a round: one report for each time that an item was processed. What a worker has
decided when it counts an item, it reports later, and until then nobody else knows of it; so reports
and workers are counted together. -/
namespace TenantQueue.Telemetry

def text? (fields : List (String × Value)) (name : String) : Option String :=
  match fields.lookup name with
  | some (.text s) => some s
  | _ => none

def flag? (fields : List (String × Value)) (name : String) : Option Bool :=
  match fields.lookup name with
  | some (.flag b) => some b
  | _ => none

namespace Event

def reports (e : Event) (queue key : String) : Bool :=
  e.message == "reconcile finished" && e.span.any fun s =>
    s.name == "reconcile" && text? s.fields "reconcile.queue" == some queue &&
      text? s.fields "reconcile.key" == some key

def requeued? (e : Event) : Option Bool := flag? e.fields "requeued"

def spanRequeued? (e : Event) : Option Bool :=
  e.span.bind fun s => flag? s.fields "reconcile.requeued"

end Event

namespace Reconcile

def verdict (queue key : String) (b : Bool) : Event := (record { queue, key } b).2

theorem reports_verdict (queue key queue' key' : String) (b : Bool) :
    (verdict queue key b).reports queue' key' = (queue == queue' && key == key') := by
  simp [verdict, record, span, Event.reports, text?, Keyed.lookup_entry]

theorem requeued?_verdict (queue key : String) (b : Bool) :
    (verdict queue key b).requeued? = some b := rfl

theorem spanRequeued?_verdict (queue key : String) (b : Bool) :
    (verdict queue key b).spanRequeued? = some b := rfl

end Reconcile

end TenantQueue.Telemetry

namespace TenantQueue.LoadTest
open Queue Telemetry Reconcile

def told (events : List Event) (key : String) (b : Bool) : Nat :=
  (events.filter (·.reports "loadtest" key)).countP (·.requeued? == some b)

theorem told_append (events events' : List Event) (key : String) (b : Bool) :
    told (events ++ events') key b = told events key b + told events' key b := by
  rw [told, List.filter_append, List.countP_append]
  rfl

theorem told_verdict (key k : String) (b b' : Bool) :
    told [verdict "loadtest" key b] k b' = if key = k ∧ b = b' then 1 else 0 := by
  by_cases hk : key = k <;> simp [told, reports_verdict, requeued?_verdict, hk]

def Worker.owes (key : String) (b : Bool) : Worker → Bool
  | .renewing k => b && k == key
  | .closing k => !b && k == key
  | _ => false

namespace Round
variable {r r' : Round} {taken : List String} {i : Nat} {w : Worker} {key : String}

def decided (r : Round) (key : String) (b : Bool) : Nat :=
  told r.trail key b + r.workers.countP (Worker.owes key b)

/-- What a step does to an item: nothing that is ever reported, or it counts the item and decides
whether it is put back. -/
inductive Decides (r r' : Round) (key : String) : Prop where
  | nothing (hc : r'.count key = r.count key) (hd : ∀ b, r'.decided key b = r.decided key b)
  | outcome (b : Bool) (hb : b = true ↔ r'.count key < r.goal)
    (hc : r'.count key = r.count key + 1)
    (hd : ∀ b', r'.decided key b' = r.decided key b' + if b = b' then 1 else 0)

/-- A worker goes on, and reports something or nothing. -/
theorem decided_become (r₁ : Round) (w' : Worker) (events : List Event)
    (hw : r.workers[i]? = some w) (hworkers : r₁.workers = r.workers)
    (ht : r₁.trail = r.trail ++ events) (k : String) (b : Bool) :
    (r₁.become i w').decided k b + (if w.owes k b then 1 else 0) =
      r.decided k b + (told events k b + if w'.owes k b then 1 else 0) := by
  have h := countP_become (Worker.owes k b) hw w'
  simp only [decided, become, hworkers, ht, told_append]
  omega

/-- A worker that is about to report an outcome reports it, any other reports nothing. -/
theorem decides_reporting (r₁ : Round) (w' : Worker) (events : List Event)
    (hw : r.workers[i]? = some w) (hworkers : r₁.workers = r.workers)
    (ht : r₁.trail = r.trail ++ events) (hc : r₁.counts = r.counts)
    (howes : ∀ k b, (if w.owes k b then 1 else 0) = told events k b + if w'.owes k b then 1 else 0)
    (k : String) : Decides r (r₁.become i w') k := by
  refine .nothing (by rw [count, become, hc, ← count]) fun b => ?_
  have h := decided_become r₁ w' events hw hworkers ht k b
  have := howes k b
  omega

/-- A worker that counts an item decides on it, and reports that at once or is about to. -/
theorem decides_counting (r₁ : Round) (w' : Worker) (events : List Event) (b : Bool)
    (ha : r.counts.Ascending) (hw : r.workers[i]? = some (.counting key))
    (hworkers : r₁.workers = r.workers) (ht : r₁.trail = r.trail ++ events)
    (hc : r₁.counts = (r.tally key).counts) (hb : b = true ↔ (r.tally key).count key < r.goal)
    (howes : ∀ k b', (told events k b' + if w'.owes k b' then 1 else 0) =
      if key = k ∧ b = b' then 1 else 0)
    (k : String) : Decides r (r₁.become i w') k := by
  have hcount : (r₁.become i w').count k = (r.tally key).count k := by
    rw [count, become, hc, ← count]
  have hd (b' : Bool) :
      (r₁.become i w').decided k b' = r.decided k b' + if key = k ∧ b = b' then 1 else 0 := by
    rw [← howes k b']
    exact decided_become r₁ w' events hw hworkers ht k b'
  rw [count_tally ha] at hcount
  by_cases hk : k = key
  · subst hk
    have hself := count_tally ha k k
    rw [if_pos rfl] at hcount hself
    refine .outcome b (by rw [hb, hself, hcount]) hcount fun b' => ?_
    simpa only [true_and] using hd b'
  · rw [if_neg hk] at hcount
    refine .nothing hcount fun b' => ?_
    simpa only [Ne.symm hk, false_and, if_false, Nat.add_zero] using hd b'

theorem Step.decides (h : r.Step taken r') (ha : r.counts.Ascending) (k : String) :
    Decides r r' k := by
  have hasks {i : Nat} {m : Monitor String} {w' : Worker} (hm : r.Asks i m)
      (hw' : ∀ b, w'.owes k b = false) :
      Decides r ({ r with monitor := m.ask.2.1 }.become i w') k := by
    refine .nothing rfl fun b => ?_
    have h := hm.countP_become (P := Worker.owes k b) rfl rfl w'
    rw [hw', if_neg Bool.false_ne_true, Nat.add_zero] at h
    exact congrArg (told r.trail k b + ·) h
  have hsilent : r.trail = r.trail ++ [] := (List.append_nil _).symm
  cases h with
  | rests => exact .nothing rfl fun _ => rfl
  | delivers => exact .nothing rfl fun _ => rfl
  | adds => exact .nothing rfl fun _ => rfl
  | takes _ hm => exact hasks hm fun _ => rfl
  | parks hm => exact hasks hm fun _ => rfl
  | leaves hm => exact hasks hm fun _ => rfl
  | @returns i key _ hw =>
    exact decides_reporting { r with monitor := (r.monitor.done key).1 } (.counting key) [] hw rfl
      hsilent rfl (fun _ _ => rfl) k
  | @finds i key hw hf =>
    have hle := finished_tally ha hf
    exact decides_counting (r.tally key) (.closing key) [] false ha hw rfl hsilent rfl
      (by simpa using hle) (fun k b => by cases b <;> simp [told, Worker.owes]) k
  | @repeats i key hw hf hc =>
    have hlt : (r.tally key).count key < r.goal := Nat.lt_of_lt_of_le hc (Nat.le_max_left ..)
    exact decides_counting (r.tally key) (.renewing key) [] true ha hw rfl hsilent rfl
      (by simpa using hlt) (fun k b => by cases b <;> simp [told, Worker.owes]) k
  | @completes i key hw hf hc =>
    have hle := goal_le_tally ha hc
    exact decides_counting ((r.tally key).record key false) .asking [verdict "loadtest" key false]
      false ha hw rfl rfl rfl (by simpa using hle) (fun k b => told_verdict key k false b) k
  | @renews i key hw =>
    refine decides_reporting ({ r with monitor := (r.monitor.add key).1 }.record key true) .asking
      [verdict "loadtest" key true] hw rfl rfl rfl (fun k b => ?_) k
    rw [told_verdict]
    cases b <;> simp [Worker.owes]
  | @closes i key hw =>
    refine decides_reporting (r.record key false).shutDown .ended
      [verdict "loadtest" key false] hw rfl rfl rfl (fun k b => ?_) k
    rw [told_verdict]
    cases b <;> simp [Worker.owes]

structure Accounted (r : Round) (key : String) : Prop where
  requeued : r.decided key true + (if r.goal ≤ r.count key then 1 else 0) = r.count key
  finished : r.decided key false = if r.goal ≤ r.count key then 1 else 0

theorem Decides.accounted (h : Decides r r' key) (hgoal : r'.goal = r.goal)
    (hle : r'.count key ≤ r.goal) (ha : r.Accounted key) : r'.Accounted key := by
  have hrequeued := ha.requeued
  have hfinished := ha.finished
  cases h with
  | nothing hc hd => exact ⟨by rw [hd, hgoal, hc, hrequeued], by rw [hd, hgoal, hc, hfinished]⟩
  | outcome b hb hc hd =>
    have hbefore : ¬ r.goal ≤ r.count key := by omega
    rw [if_neg hbefore] at hrequeued hfinished
    cases b with
    | true =>
      have hafter : ¬ r.goal ≤ r'.count key := Nat.not_le.2 (hb.1 rfl)
      constructor
      · rw [hd, hgoal, if_pos rfl, if_neg hafter]
        omega
      · rw [hd, hgoal, if_neg (by decide), if_neg hafter, hfinished]
    | false =>
      have hafter : r.goal ≤ r'.count key := Nat.not_lt.1 fun hlt => Bool.false_ne_true (hb.2 hlt)
      constructor
      · rw [hd, hgoal, if_neg (by decide), if_pos hafter]
        omega
      · rw [hd, hgoal, if_pos rfl, if_pos hafter, hfinished]

theorem Step.trail_cases (h : r.Step taken r') :
    r'.trail = r.trail ∨ ∃ key b, r'.trail = r.trail ++ [verdict "loadtest" key b] := by
  cases h with
  | completes => exact .inr ⟨_, _, rfl⟩
  | renews => exact .inr ⟨_, _, rfl⟩
  | closes => exact .inr ⟨_, _, rfl⟩
  | _ => exact .inl rfl

structure Logged (p : Profile) (cycles : Nat) (r : Round) : Prop where
  kept : r.Kept p cycles
  accounted (key : String) : r.Accounted key
  trail : ∀ e ∈ r.trail, ∃ key b, e = verdict "loadtest" key b

variable {p : Profile} {cycles : Nat}

theorem Step.logged (h : r.Step taken r') (hl : r.Logged p cycles) : r'.Logged p cycles where
  kept := h.kept hl.kept
  accounted key := by
    have hk := h.kept hl.kept
    have hgoal : r'.goal = r.goal := hk.goal_eq.trans hl.kept.goal_eq.symm
    exact (h.decides hl.kept.balanced.ascending key).accounted hgoal
      (hl.kept.goal_eq ▸ hk.count_le key) (hl.accounted key)
  trail e he := by
    cases h.trail_cases with
    | inl ht => exact hl.trail e (ht ▸ he)
    | inr ht =>
      obtain ⟨key, b, ht⟩ := ht
      rw [ht, List.mem_append, List.mem_singleton] at he
      exact he.elim (hl.trail e) fun he => ⟨key, b, he⟩

theorem Logged.shutDown (hl : r.Logged p cycles) : r.shutDown.Logged p cycles where
  kept := hl.kept.shutDown
  accounted key := ⟨(hl.accounted key).requeued, (hl.accounted key).finished⟩
  trail := hl.trail

theorem logged_start {queue : WorkQueue String} (hs : queue.Sound) (hempty : queue.size = 0)
    (hnone : ∀ key, ¬ queue.IsProcessing key) (hp : p.Valid) (cycles workers : Nat) :
    (start queue p cycles workers).Logged p cycles where
  kept := kept_start hs hempty hnone hp cycles workers
  accounted key := by
    have hcount := count_start queue p cycles workers key
    have hgoal : ¬ (start queue p cycles workers).goal ≤ 0 :=
      Nat.not_le.2 (Nat.le_max_right cycles 1)
    have hdecided (b : Bool) : (start queue p cycles workers).decided key b = 0 := by
      rw [decided]
      exact (Nat.zero_add _).trans (List.countP_replicate.trans (if_neg (by simp [Worker.owes])))
    exact ⟨by rw [hcount, hdecided, if_neg hgoal], by rw [hcount, hdecided, if_neg hgoal]⟩
  trail e he := absurd he List.not_mem_nil

/-- Each report on a key tells one outcome or the other. -/
theorem length_reports {events : List Event}
    (h : ∀ e ∈ events, ∃ key b, e = verdict "loadtest" key b) (key : String) :
    (events.filter (·.reports "loadtest" key)).length =
      told events key true + told events key false := by
  rw [List.length_eq_countP_add_countP (·.requeued? == some true), told, told]
  refine congrArg (_ + ·) (List.countP_congr fun e he => ?_)
  obtain ⟨key, b, rfl⟩ := h e (List.mem_of_mem_filter he)
  cases b <;> simp [requeued?_verdict]

def callOf (r : Round) (i : Nat) : Option (Call String) :=
  match r.workers[i]? with
  | some .asking => some .get
  | some .parked => if r.monitor.notified = 0 then none else some .get
  | some (.working key deadline) => if r.now < deadline then none else some (.done key)
  | some (.renewing key) => some (.add key)
  | some (.closing _) => some .shutDown
  | _ => none

def readds (r : Round) : Incident → List String
  | .turn (.worker i) =>
    match r.callOf i with
    | some (.add key) => [key]
    | _ => []
  | _ => []

def readded : List Incident → Round → List String
  | [], _ => []
  | incident :: incidents, r => r.readds incident ++ readded incidents (r.meet incident)

def putBack (r : Round) : Nat := r.trail.countP (·.requeued? == some true)

theorem putBack_record (r : Round) (key : String) (b : Bool) :
    (r.record key b).putBack = r.putBack + if b then 1 else 0 := by
  have ht : (r.record key b).trail = r.trail ++ [verdict "loadtest" key b] := rfl
  cases b <;> simp [putBack, ht, requeued?_verdict]

/-- All that a turn of a worker does to the queue is its call, and if that adds an item again, then
it is reported in the same turn that the item was put back. -/
theorem workerStep_call (r : Round) (i : Nat) :
    (r.workerStep i).monitor.queue = (r.callOf i).elim r.monitor.queue r.monitor.queue.after ∧
      (r.workerStep i).putBack = r.putBack + (r.readds (.turn (.worker i))).length := by
  have hask (m : Monitor String) (hm : m.queue = r.monitor.queue) :
      (r.answered i m.ask).monitor.queue = r.monitor.queue.after .get ∧
        (r.answered i m.ask).putBack = r.putBack := by
    have hqueue : m.ask.2.1.queue = r.monitor.queue.after .get := hm ▸ m.queue_ask
    rcases ha : m.ask with ⟨x | _ | _, m', effects⟩ <;> rw [ha] at hqueue <;> exact ⟨hqueue, rfl⟩
  simp only [workerStep, readds, callOf]
  cases hw : r.workers[i]? with
  | none => exact ⟨rfl, rfl⟩
  | some w =>
    cases w with
    | asking => exact hask r.monitor rfl
    | parked =>
      by_cases hn : r.monitor.notified = 0
      · simp only [hn, if_true]
        exact ⟨rfl, rfl⟩
      · simp only [hn, if_false]
        exact hask { r.monitor with notified := r.monitor.notified - 1 } rfl
    | working key deadline =>
      by_cases hd : r.now < deadline
      · simp only [hd, if_true]
        exact ⟨rfl, rfl⟩
      · simp only [hd, if_false]
        exact ⟨Monitor.queue_done r.monitor key, rfl⟩
    | counting key =>
      simp only [counted_eq]
      split
      · exact ⟨rfl, rfl⟩
      · split
        · exact ⟨rfl, rfl⟩
        · exact ⟨rfl, putBack_record _ key false⟩
    | renewing key => exact ⟨Monitor.queue_add r.monitor key, putBack_record _ key true⟩
    | closing key => exact ⟨queue_shutDown r, putBack_record r key false⟩
    | ended => exact ⟨rfl, rfl⟩

theorem putBack_meet (r : Round) (incident : Incident) :
    (r.meet incident).putBack = r.putBack + (r.readds incident).length := by
  cases incident with
  | shutDown => rfl
  | turn t =>
    cases t with
    | worker i => exact (workerStep_call r i).2
    | adder =>
      simp only [meet, step, readds]
      split <;> rfl
    | signal => rfl
    | tick n => rfl

/-- As many items are put back, by the trail, as workers add again. -/
theorem putBack_undergo (incidents : List Incident) (r : Round) :
    (r.undergo incidents).putBack = r.putBack + (readded incidents r).length := by
  induction incidents generalizing r with
  | nil => rfl
  | cons incident incidents ih =>
    rw [readded, List.length_append, ← Nat.add_assoc, ← putBack_meet]
    exact ih (r.meet incident)

/-- At the end of a round all that was decided has been reported. -/
theorem told_of_isOver (ho : r.isOver = true) (key : String) (b : Bool) :
    told r.trail key b = r.decided key b := by
  rw [decided, countP_of_isOver ho rfl, Nat.add_zero]

/-- Only a key that was counted is reported. -/
theorem Logged.mem_keys (hl : r.Logged p cycles) (hp : p.Valid) {b : Bool}
    (he : verdict "loadtest" key b ∈ r.trail) : key ∈ p.keys := by
  have htold : 0 < told r.trail key b :=
    List.countP_pos_iff.2
      ⟨_, List.mem_filter.2 ⟨he, by simp [reports_verdict]⟩, by simp [requeued?_verdict]⟩
  have hcount : 0 < r.count key := by
    have hdecided : 0 < r.decided key b := Nat.lt_of_lt_of_le htold (Nat.le_add_right ..)
    have hrequeued := (hl.accounted key).requeued
    have hfinished := (hl.accounted key).finished
    have hgoal : 1 ≤ r.goal := Nat.le_max_right ..
    cases b with
    | true => omega
    | false =>
      rw [hfinished] at hdecided
      split at hdecided <;> omega
  exact hl.kept.keys_eq hp ▸ mem_keys_of_count_pos hcount

/-- However a round ends, and whoever shuts its queue down: of each key of the profile there is one
report for each time that it was processed, from within a span that has the same outcome; one of them
says that the item was not put back if it was processed as often as was asked for, and else none does.
Nothing else is reported, and as many items were put back as workers have added again; a worker's call
is all that its turn does to the queue, at any time. -/
theorem trail_tells_outcomes (flavour : Flavour) (name : Option String)
    (calls : List (Call String)) {q : WorkQueue String}
    (hq : q = WorkQueue.run calls (.empty flavour name)) (hempty : q.size = 0)
    (hnone : ∀ key, ¬ q.IsProcessing key) {items : List (String × Nat)} {p : Profile}
    (hp : Profile.ofList items = .ok p) {cycles : Nat} (hcycles : 1 ≤ cycles) (workers : Nat)
    (incidents : List Incident) :
    let r₀ := start q p cycles workers
    let r := r₀.undergo incidents
    r.isOver = true →
      (∀ key ∈ p.keys, ∃ n, r.counts.get? key = some n ∧
        let reports := r.trail.filter (·.reports "loadtest" key)
        reports.length = n ∧
        (∀ e ∈ reports, ∃ b, e.requeued? = some b ∧ e.spanRequeued? = some b) ∧
        reports.countP (·.requeued? == some false) = if n = cycles then 1 else 0) ∧
      (∀ e ∈ r.trail, ∃ key ∈ p.keys, e.reports "loadtest" key = true) ∧
      r.trail.countP (·.requeued? == some true) = (readded incidents r₀).length ∧
      ∀ earlier i, let before := r₀.undergo earlier
        (before.workerStep i).monitor.queue =
          (before.callOf i).elim before.monitor.queue before.monitor.queue.after := by
  intro r₀ r ho
  have hs : q.Sound := hq ▸ (WorkQueue.sound_empty flavour name).run calls
  have hvalid := Profile.valid_of_ofList hp
  have hl : r.Logged p cycles :=
    undergo_induction (fun _ _ _ hl h => h.logged hl) (fun _ hl => hl.shutDown) incidents
      (logged_start hs hempty hnone hvalid cycles workers)
  have hgoal : r.goal = cycles := hl.kept.goal_eq.trans (Nat.max_eq_left hcycles)
  refine ⟨fun key hk => ?_, fun e he => ?_, ?_, fun earlier i => (workerStep_call _ i).1⟩
  · obtain ⟨n, hn⟩ := hl.kept.balanced.ascending.exists_get?
      (hl.kept.balanced.listed key (hl.kept.profile_eq ▸ hk))
    have hcount := count_of_get? hn
    have hle := hl.kept.count_le key
    have hrequeued := (hl.accounted key).requeued
    have hfinished := (hl.accounted key).finished
    rw [← told_of_isOver ho, hgoal, hcount] at hrequeued hfinished
    refine ⟨n, hn, ?_, fun e he => ?_, ?_⟩
    · rw [length_reports hl.trail]
      omega
    · obtain ⟨key, b, rfl⟩ := hl.trail e (List.mem_of_mem_filter he)
      exact ⟨b, requeued?_verdict .., spanRequeued?_verdict ..⟩
    · have hiff : cycles ≤ n ↔ n = cycles := by omega
      rw [← if_congr hiff rfl rfl, ← hfinished]
      rfl
  · obtain ⟨key, b, rfl⟩ := hl.trail e he
    exact ⟨key, hl.mem_keys hvalid he, by simp [reports_verdict]⟩
  · exact (putBack_undergo incidents r₀).trans (Nat.zero_add _)

/-- The only worker has processed the first key twice and the second once when the queue is shut down,
and puts the second back all the same. -/
theorem trail_tells_outcomes_after_shutdown :
    let q : WorkQueue String := WorkQueue.run [] (.empty .fair)
    let p : Profile := ⟨⟨[("a/1", 0), ("b/1", 0)]⟩⟩
    let work : Incident := .turn (.worker 0)
    let incidents : List Incident := [.turn .adder, work, work, work, work, work, work, work,
      .turn .adder, work, work, work, .shutDown, work, work]
    let r := (start q p 2 1).undergo incidents
    let before := (start q p 2 1).undergo (incidents.take 13)
    q.size = 0 ∧ (∀ key, ¬ q.IsProcessing key) ∧
      Profile.ofList [("a/1", 0), ("b/1", 0)] = .ok p ∧ 1 ≤ 2 ∧ r.isOver = true ∧
      (r.trail.filter (·.reports "loadtest" "a/1")).length = 2 ∧
      (r.trail.filter (·.reports "loadtest" "a/1")).countP (·.requeued? == some false) = 1 ∧
      (r.trail.filter (·.reports "loadtest" "b/1")).length = 1 ∧
      (r.trail.filter (·.reports "loadtest" "b/1")).countP (·.requeued? == some false) = 0 ∧
      r.trail.countP (·.requeued? == some true) = ["a/1", "b/1"].length ∧
      before.monitor.queue.shuttingDown = true ∧
      (before.workerStep 0).monitor.queue = before.monitor.queue.after (.add "b/1") := by
  intro q p work incidents r before
  have hnone (key : String) : ¬ q.IsProcessing key :=
    (WorkQueue.not_held_empty .fair none key).2
  have hp : Profile.ofList [("a/1", 0), ("b/1", 0)] = .ok p := rfl
  have hover : r.isOver = true := by decide
  have ha : r.counts.get? "a/1" = some 2 := by decide
  have hb : r.counts.get? "b/1" = some 1 := by decide
  have hagain : readded incidents (start q p 2 1) = ["a/1", "b/1"] := by decide
  have hdown : before.monitor.queue.shuttingDown = true := by decide
  have hbefore : (start q p 2 1).undergo (incidents.take 13) = before := rfl
  have hadds : before.callOf 0 = some (.add "b/1") := by decide
  obtain ⟨htold, -, hback, hcall⟩ :=
    trail_tells_outcomes (q := q) .fair none [] rfl rfl hnone hp (by decide) 1 incidents hover
  obtain ⟨n, hn, hlen, -, hlast⟩ := htold "a/1" (by decide)
  obtain ⟨n', hn', hlen', -, hlast'⟩ := htold "b/1" (by decide)
  cases hn.symm.trans ha
  cases hn'.symm.trans hb
  have hqueue := hcall (incidents.take 13) 0
  simp only [hbefore, hadds, Option.elim_some] at hqueue
  exact ⟨rfl, hnone, hp, by decide, hover, hlen, hlast, hlen', hlast', hagain ▸ hback, hdown,
    hqueue⟩

end Round

end TenantQueue.LoadTest
