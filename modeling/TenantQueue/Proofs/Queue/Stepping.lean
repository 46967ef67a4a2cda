import TenantQueue.Proofs.Queue.Stored
import Mathlib.Data.List.Iterate

/-! Steps of the cursor. A scan whose visitor has enough at once moves the cursor on by one slot, as
`advance` does. After the last slot comes the first, so that as many steps as there are slots lead
once round the ring. -/
namespace TenantQueue.Queue
variable {κ ν σ : Type}

def Visitor.first : Visitor (Option ν) ν := fun _ v => (false, v, some v)

inductive Stride where
  | advance | scan
  deriving DecidableEq, Repr

namespace Position

def upcoming (n : Nat) : Position → Nat
  | head => 0
  | slot c => (c + 1) % n

variable {n : Nat} {c : Position}

theorem following_last {i : Nat} (h : i + 1 = n) : (slot i).following n = .slot 0 := by
  have hi : ¬ i + 1 < n := by omega
  have hn : 0 < n := by omega
  rw [following, if_neg hi, ofIndex, if_pos hn]

theorem following_eq_upcoming (h : c.Within n) (hn : 0 < n) :
    c.following n = .slot (c.upcoming n) := by
  cases c with
  | head => exact if_pos hn
  | slot i =>
    by_cases hi : i + 1 < n
    · rw [following, if_pos hi, upcoming, Nat.mod_eq_of_lt hi]
    · have hlast : i + 1 = n := Nat.le_antisymm h (Nat.le_of_not_lt hi)
      rw [following_last hlast, upcoming, hlast, Nat.mod_self]

/-- After the last of `n` slots comes a slot that was added meanwhile. -/
theorem following_final (n : Nat) : (final n).following (n + 1) = .slot n := by
  cases n with
  | zero => rfl
  | succ n => exact if_pos (Nat.lt_succ_self (n + 1))

theorem upcoming_lt (c : Position) (hn : 0 < n) : c.upcoming n < n := by
  cases c with
  | head => exact hn
  | slot i => exact Nat.mod_lt (i + 1) hn

theorem following_of_isEmpty (h : c.Within 0) : c.following 0 = .head := by
  cases c with
  | head => rfl
  | slot i => exact absurd h (Nat.not_lt_zero i)

/-- Short of the end each step leads to the next slot. -/
theorem iterate_following {i k : Nat} (h : i + k < n) :
    (following n)^[k] (.slot i) = .slot (i + k) := by
  induction k with
  | zero => rfl
  | succ k ih =>
    have hlt : i + k + 1 < n := by omega
    rw [Function.iterate_succ_apply', ih (by omega), following, if_pos hlt, Nat.add_assoc]

theorem iterate_stretch {i k : Nat} (h : i + k ≤ n) :
    List.iterate (following n) (.slot i) k = (List.range' i k).map .slot := by
  apply List.ext_getElem
  · simp
  · intro j hj hj'
    have hlt : i + j < n := by
      rw [List.length_iterate] at hj
      omega
    simp [iterate_following hlt]

/-- The end of the slots leads on to the first. -/
theorem iterate_wrap {i : Nat} (h : i < n) : (following n)^[n - i] (.slot i) = .slot 0 := by
  obtain ⟨k, hk⟩ : ∃ k, n - i = k + 1 := ⟨n - i - 1, by omega⟩
  have hend : i + k + 1 = n := by omega
  rw [hk, Function.iterate_succ_apply', iterate_following (by omega), following_last hend]

/-- As many steps as there are slots lead through one revolution. -/
theorem iterate_eq_revolution (h : c.Within n) :
    List.iterate (following n) (c.following n) n = (c.revolution n).map .slot := by
  cases c with
  | head =>
    cases n with
    | zero => rfl
    | succ n => exact iterate_stretch (by omega)
  | slot c =>
    have hc : c < n := h
    have hn : n = n - (c + 1) + (c + 1) := by omega
    have hback : List.iterate (following n) ((slot c).following n) (n - (c + 1)) =
        (List.range' (c + 1) (n - (c + 1))).map .slot := by
      by_cases hlt : c + 1 < n
      · rw [following, if_pos hlt, iterate_stretch (by omega)]
      · rw [Nat.sub_eq_zero_of_le (Nat.le_of_not_lt hlt)]
        rfl
    have hturn : (following n)^[n - (c + 1)] ((slot c).following n) = .slot 0 := by
      have hsub : (n - (c + 1)).succ = n - c := by omega
      rw [← Function.iterate_succ_apply, hsub, iterate_wrap hc]
    have hfront : List.iterate (following n) (.slot 0) (c + 1) =
        (List.range' 0 c ++ [c]).map .slot := by
      rw [iterate_stretch (by omega), List.range'_concat, Nat.zero_add, Nat.one_mul]
    calc List.iterate (following n) ((slot c).following n) n
        = List.iterate (following n) ((slot c).following n) (n - (c + 1) + (c + 1)) :=
          congrArg _ hn
      _ = ((slot c).revolution n).map .slot := by
          rw [List.iterate_add, hback, hturn, hfront, ← List.map_append, revolution,
            List.append_assoc]

def home (n : Nat) : Position → Position
  | head => .final n
  | slot c => .slot c

theorem iterate_home (h : c.Within n) : (following n)^[n] c = c.home n := by
  cases c with
  | head =>
    cases n with
    | zero => rfl
    | succ n =>
      have hfirst : head.following (n + 1) = .slot 0 := rfl
      rw [Function.iterate_succ_apply, hfirst, iterate_following (by omega), Nat.zero_add]
      rfl
  | slot c =>
    have hc : c < n := h
    calc (following n)^[n] (.slot c)
        = (following n)^[c + (n - c)] (.slot c) := by rw [Nat.add_sub_cancel' (Nat.le_of_lt hc)]
      _ = .slot c := by
          rw [Function.iterate_add_apply, iterate_wrap hc, iterate_following (by omega),
            Nat.zero_add]

end Position

namespace Ring

def stride (r : Ring κ ν) : Stride → Option ν × Ring κ ν
  | .advance => r.advance
  | .scan => ((r.rangeNext .first none).2, (r.rangeNext .first none).1)

def walk : List Stride → Ring κ ν → List (Position × Option ν) × Ring κ ν
  | [], r => ([], r)
  | way :: ways, r =>
    let (v, r) := r.stride way
    let (trail, r') := walk ways r
    ((r.cursor, v) :: trail, r')

/-- A visitor that has enough at once is shown one slot only. -/
theorem sweep_first {order : List Nat} {es : List (κ × ν)} {i : Nat} {e : κ × ν}
    (ho : order.head? = some i) (hi : es[i]? = some e) (s : Option ν) :
    sweep .first order es s = (some i, es, some e.2) := by
  obtain ⟨rest, rfl⟩ := List.head?_eq_some_iff.1 ho
  have hkeep : (es.modify i fun e' => (e'.1, e.2)) = es := by
    ext1 j
    by_cases hj : i = j
    · subst hj
      simp [hi]
    · simp [hj]
  simp [sweep, hi, Visitor.first, hkeep]

theorem head?_revolution {n i : Nat} {c : Position} (h : c.Within n)
    (hf : c.following n = .slot i) : (c.revolution n).head? = some i := by
  cases n with
  | zero =>
    rw [Position.following_of_isEmpty h] at hf
    cases hf
  | succ n =>
    have hfirst := congrArg List.head? (Position.iterate_eq_revolution h)
    rw [List.iterate, List.head?_cons, hf, List.head?_map] at hfirst
    obtain ⟨j, hj, he⟩ := Option.map_eq_some_iff.1 hfirst.symm
    cases he
    exact hj

section Steps
variable {r : Ring κ ν}

theorem LaidOut.within_size (h : r.LaidOut) : r.cursor.Within r.size := h.size_eq ▸ h.within

theorem LaidOut.withCursor (h : r.LaidOut) (c : Position) :
    { r with cursor := c } = ofEntries r.entries c := by
  conv_lhs => rw [h.eq_ofEntries]
  rfl

theorem LaidOut.advance_eq (h : r.LaidOut) :
    r.advance = (r.valueAt? (r.cursor.following r.size),
      { r with cursor := r.cursor.following r.size }) := by
  have hring : r.advance.2 = { r with cursor := r.cursor.following r.size } := by
    rw [h.withCursor, h.size_eq, ← advance_ofEntries r.entries h.within, ← h.eq_ofEntries]
  have hvalue : r.advance.1 = r.valueAt? r.advance.2.cursor := rfl
  rw [hring] at hvalue
  exact Prod.ext hvalue hring

theorem LaidOut.cursor_of_isEmpty (h : r.LaidOut) (hr : r.size = 0) : r.cursor = .head := by
  have hw := h.within_size
  rw [hr] at hw
  cases hc : r.cursor with
  | head => rfl
  | slot i =>
    rw [hc] at hw
    exact absurd hw (Nat.not_lt_zero i)

theorem LaidOut.advance_of_isEmpty (h : r.LaidOut) (hr : r.size = 0) : r.advance = (none, r) := by
  have hc := h.cursor_of_isEmpty hr
  have hstay : r.cursor.following r.size = r.cursor := by
    rw [hc, hr]
    rfl
  have hvalue : r.valueAt? r.cursor = none := by
    rw [hc]
    rfl
  rw [h.advance_eq, hstay, hvalue]

theorem LaidOut.advance_of_pos (h : r.LaidOut) (hr : 0 < r.size) :
    r.advance = (r.valueAt? (.slot (r.cursor.upcoming r.size)),
      { r with cursor := .slot (r.cursor.upcoming r.size) }) := by
  rw [h.advance_eq, Position.following_eq_upcoming h.within_size hr]

/-- A scan that has enough at once steps the cursor as `advance` does. -/
theorem LaidOut.rangeNext_first (h : r.LaidOut) :
    r.rangeNext .first none = (r.advance.2, r.advance.1) := by
  rw [h.rangeNext_eq]
  rcases Nat.eq_zero_or_pos r.size with hr | hr
  · rw [h.advance_of_isEmpty hr, hr, h.cursor_of_isEmpty hr]
    calc afterSweep .head (none, r.entries, none)
        = (ofEntries r.entries .head, none) := rfl
      _ = (r, none) := by rw [← h.cursor_of_isEmpty hr, ← h.eq_ofEntries]
  · have hnext := Position.following_eq_upcoming h.within_size hr
    have hlt : r.cursor.upcoming r.size < r.entries.length :=
      h.size_eq ▸ Position.upcoming_lt r.cursor hr
    have hentry := List.getElem?_eq_getElem hlt
    have hhead := head?_revolution h.within_size hnext
    rw [sweep_first hhead hentry, h.advance_of_pos hr, h.withCursor, h.valueAt?, hentry]
    rfl

theorem LaidOut.stride_eq (h : r.LaidOut) (way : Stride) : r.stride way = r.advance := by
  cases way with
  | advance => rfl
  | scan => rw [stride, h.rangeNext_first]

theorem LaidOut.walk_eq (h : r.LaidOut) (ways : List Stride) :
    r.walk ways =
      ((List.iterate (Position.following r.size) (r.cursor.following r.size) ways.length).map
          fun p => (p, r.valueAt? p),
        { r with cursor := (Position.following r.size)^[ways.length] r.cursor }) := by
  induction ways generalizing r with
  | nil => rfl
  | cons way ways ih =>
    have h' : ({ r with cursor := r.cursor.following r.size } : Ring κ ν).LaidOut := by
      have hadvance := h.advance
      rwa [h.advance_eq] at hadvance
    rw [walk, h.stride_eq, h.advance_eq]
    dsimp only
    rw [ih h']
    rfl

/-- Walking as far as there are slots leads through one revolution. -/
theorem LaidOut.walk_round (h : r.LaidOut) {ways : List Stride} (hways : ways.length = r.size) :
    r.walk ways =
      ((r.cursor.revolution r.size).map fun i => (.slot i, r.valueAt? (.slot i)),
        { r with cursor := r.cursor.home r.size }) := by
  rw [h.walk_eq, hways, Position.iterate_eq_revolution h.within_size,
    Position.iterate_home h.within_size, List.map_map]
  rfl

variable [DecidableEq κ]

/-- From the last slot the next step leads to a slot that was added meanwhile. -/
theorem LaidOut.advance_add (h : r.LaidOut) {key : κ} (hk : key ∉ r.listing.keys)
    (hc : r.cursor = .final r.size) (v : ν) :
    (r.add key v).2.advance = (some v, { (r.add key v).2 with cursor := .slot r.size }) := by
  have hadd := congrArg Prod.snd (h.add_of_notMem hk v)
  have hsize : (r.add key v).2.size = r.size + 1 := by
    rw [hadd, size_ofEntries, List.length_append, ← h.size_eq]
    rfl
  have hcursor : (r.add key v).2.cursor = .final r.size := by
    rw [hadd]
    exact hc
  have hvalue := (h.getOrInsert_of_notMem hk (fun s : Unit => (v, s)) ()).2.1
  rw [(h.add key v).advance_eq, hsize, hcursor, Position.following_final, hvalue]

/-- To step the cursor is to scan with a visitor that has enough at once. Whatever was called
before, the two return the same value and leave the same ring. The cursor goes from the head to the
first slot and from slot `c` of `n` to slot `(c + 1) % n`, so that a slot added while it is on the
last one comes next. As many steps as there are slots, each in either way, come by every slot once,
and from a slot they lead back to it. -/
theorem steps_agree (before : List (RingCall κ ν)) :
    let r : Ring κ ν := run before {}
    r.rangeNext .first none = (r.advance.2, r.advance.1) ∧
    (r.size = 0 → ∀ way, r.stride way = (none, r)) ∧
    (0 < r.size → ∀ way,
      r.stride way = (r.valueAt? (.slot (r.cursor.upcoming r.size)),
        { r with cursor := .slot (r.cursor.upcoming r.size) }) ∧
      (r.stride way).1.isSome) ∧
    (r.cursor = .final r.size → ∀ key, r.get? key = none →
      (∀ v way, ((r.add key v).2.stride way).1 = some v ∧
        ((r.add key v).2.stride way).2.cursor = .slot r.size) ∧
      ∀ {σ : Type} (make : σ → ν × σ) s way,
        ((r.getOrInsert key make s).2.1.stride way).1 = some (make s).1 ∧
        ((r.getOrInsert key make s).2.1.stride way).2.cursor = .slot r.size) ∧
    ∀ ways : List Stride, ways.length = r.size →
      (∀ i < r.size, ((r.walk ways).1.map Prod.fst).count (.slot i) = 1) ∧
      (∀ step ∈ (r.walk ways).1, step.2 = r.valueAt? step.1) ∧
      (r.walk ways).2 = { r with cursor := r.cursor.home r.size } ∧
      ∀ c, r.cursor = .slot c → (r.walk ways).2 = r := by
  intro r
  have h : r.LaidOut := laidOut_empty.run before
  have happended (key : κ) (hc : r.cursor = .final r.size) (hk : r.get? key = none) (v : ν)
      (way : Stride) : ((r.add key v).2.stride way).1 = some v ∧
        ((r.add key v).2.stride way).2.cursor = .slot r.size := by
    rw [(h.add key v).stride_eq, h.advance_add ((h.get?_eq_none_iff key).1 hk) hc]
    exact ⟨rfl, rfl⟩
  refine ⟨h.rangeNext_first, fun hr way => ?_, fun hr way => ?_, fun hc key hk => ⟨?_, ?_⟩,
    fun ways hways => ⟨fun i hi => ?_, fun step hstep => ?_, ?_, fun c hc => ?_⟩⟩
  · rw [h.stride_eq, h.advance_of_isEmpty hr]
  · rw [h.stride_eq, h.advance_of_pos hr]
    exact ⟨rfl, h.isSome_valueAt? (Position.upcoming_lt r.cursor hr)⟩
  · exact happended key hc hk
  · intro σ make s way
    rw [(h.getOrInsert_of_notMem ((h.get?_eq_none_iff key).1 hk) make s).1]
    exact happended key hc hk (make s).1 way
  · rw [h.walk_round hways, List.map_map]
    have hslots : ((r.cursor.revolution r.size).map Position.slot).Nodup :=
      (revolution_nodup r.size r.cursor).map fun i j he => by cases he; rfl
    exact List.count_eq_one_of_mem hslots (List.mem_map_of_mem ((h.mem_revolution i).2 hi))
  · rw [h.walk_round hways] at hstep
    obtain ⟨i, -, rfl⟩ := List.mem_map.1 hstep
    rfl
  · rw [h.walk_round hways]
  · rw [h.walk_round hways, hc]
    exact congrArg _ hc.symm

end Steps

end Ring

end TenantQueue.Queue
