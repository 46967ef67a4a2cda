/-! What is left of a text for a reader when the control sequences that a terminal would obey, and
its control characters other than blanks, are taken out. -/
namespace TenantQueue.Text
namespace Terminal

inductive Head where
  | opened | parameters | intermediates
  deriving DecidableEq, Repr

inductive Mode where
  | plain
  | escape
  | escapeIntermediates
  | control (head : Head)
  /-- A control sequence with a bad head. -/
  | badControl
  | device (head : Head)
  | command
  /-- Text for the terminal alone. -/
  | hidden
  deriving DecidableEq, Repr

def isHead (c : Char) : Bool := ' ' ≤ c && c ≤ '?'

def isFinal (c : Char) : Bool := '@' ≤ c && c ≤ '~'

def Head.next? (head : Head) (c : Char) : Option Head :=
  if c ≤ '/' then some .intermediates
  else match head with
    | .opened => some .parameters
    | .parameters => if c ≤ ';' then some .parameters else none
    | .intermediates => none

/-- The byte 9C is the string terminator, even as a part of another character. -/
def endsHidden (c : Char) : Bool := 0x9C ∈ String.utf8EncodeChar c

namespace Mode

def next (c : Char) (m : Mode) : Mode :=
  if c = '\x1b' then .escape
  else if c = '\x18' ∨ c = '\x1a' then .plain
  else match m with
    | .plain => .plain
    | .escape =>
      if c = '[' then .control .opened
      else if c = ']' then .command
      else if c = 'P' then .device .opened
      else if c ∈ ['X', '^', '_'] then .hidden
      else if ' ' ≤ c ∧ c ≤ '/' then .escapeIntermediates
      else if '0' ≤ c ∧ c ≤ '~' then .plain
      else .escape
    | .escapeIntermediates => if '0' ≤ c ∧ c ≤ '~' then .plain else .escapeIntermediates
    | .control head =>
      if isFinal c then .plain
      else if isHead c then (head.next? c).elim .badControl .control
      else .control head
    | .badControl => if isFinal c then .plain else .badControl
    | .device head =>
      if isFinal c then .hidden
      else if isHead c then (head.next? c).elim .hidden .device
      else .device head
    | .command => if c = '\x07' then .plain else .command
    | .hidden => if endsHidden c then .plain else .hidden

/-- Whether a character is shown. Blanks are shown even within an escape or control sequence, and
end it. -/
def shows (c : Char) : Mode → Bool
  | .plain => ' ' ≤ c && c ≠ '\x7f' || c ∈ ['\t', '\n', '\x0c', '\r']
  | .escape | .escapeIntermediates | .control _ | .badControl => c ∈ ['\t', '\n', '\x0c', '\r']
  | .device _ | .command | .hidden => false

def read : Mode → List Char → List Char
  | _, [] => []
  | m, c :: s => if m.shows c then c :: read .plain s else read (m.next c) s

theorem plain_shows {c : Char} {m : Mode} (h : m.shows c = true) : plain.shows c = true := by
  cases m <;> simp_all [shows]

/-- What is left can be shown as it is. -/
theorem plain_shows_of_mem_read {c : Char} {m : Mode} {s : List Char} (h : c ∈ m.read s) :
    plain.shows c = true := by
  induction s generalizing m with
  | nil => simp [read] at h
  | cons d s ih =>
    rw [read] at h
    split at h
    next hd =>
      rcases List.mem_cons.1 h with rfl | h
      · exact plain_shows hd
      · exact ih h
    next => exact ih h

theorem read_eq_self {s : List Char} (h : ∀ c ∈ s, plain.shows c = true) : plain.read s = s := by
  induction s with
  | nil => rfl
  | cons c s ih =>
    rw [read, ite_cond_eq_true _ _ (eq_true (h c (List.mem_cons_self)))]
    rw [ih fun c hc => h c (List.mem_cons_of_mem _ hc)]

end Mode

end Terminal

def shown (s : String) : String := String.ofList (Terminal.Mode.plain.read s.toList)

theorem toList_shown (s : String) : (shown s).toList = Terminal.Mode.plain.read s.toList := by
  simp [shown]

/-- What was taken out once leaves nothing more to take out. -/
theorem shown_shown (s : String) : shown (shown s) = shown s := by
  rw [shown, toList_shown,
    Terminal.Mode.read_eq_self fun _ => Terminal.Mode.plain_shows_of_mem_read]
  rfl

end TenantQueue.Text
