import TenantQueue.Text.Blank
import TenantQueue.Text.Numeral
import Mathlib.Data.List.Basic
import Mathlib.Data.List.TakeWhile
import Mathlib.Data.Nat.Digits.Defs
import Mathlib.Tactic.Ring

/-! What trimming leaves of a text, and which texts are read as numerals. -/
namespace TenantQueue.Text

theorem exists_trimStart (s : List Char) :
    ∃ front, s = front ++ trimStart s ∧ ∀ c ∈ front, isBlank c = true :=
  ⟨s.takeWhile isBlank, List.takeWhile_append_dropWhile.symm, fun _ hc => List.mem_takeWhile_imp hc⟩

theorem head_trimStart (s : List Char) : ∀ c ∈ (trimStart s).head?, isBlank c = false := by
  intro c hc
  have h := List.head?_dropWhile_not isBlank s
  rw [show (s.dropWhile isBlank).head? = some c from hc] at h
  simpa using h

theorem trimStart_append {front : List Char} (h : ∀ c ∈ front, isBlank c = true) (s : List Char) :
    trimStart (front ++ s) = trimStart s := List.dropWhile_append_of_pos h

theorem trimStart_eq_self {s : List Char} (h : ∀ c ∈ s.head?, isBlank c = false) :
    trimStart s = s := by
  cases s with
  | nil => rfl
  | cons c rest => exact List.dropWhile_cons_of_neg (by simp [h c rfl])

def Trimmed (s core : List Char) : Prop :=
  ∃ front back, s = front ++ core ++ back ∧
    (∀ c ∈ front, isBlank c = true) ∧ (∀ c ∈ back, isBlank c = true) ∧
    (∀ c ∈ core.head?, isBlank c = false) ∧ ∀ c ∈ core.getLast?, isBlank c = false

theorem trimmed_trim (s : List Char) : Trimmed s (trim s) := by
  obtain ⟨front, hs, hfront⟩ := exists_trimStart s
  obtain ⟨back, hrest, hback⟩ := exists_trimStart (trimStart s).reverse
  have hcore : trimStart s = trim s ++ back.reverse := by
    rw [← List.reverse_reverse (trimStart s), hrest, List.reverse_append]
    rfl
  refine ⟨front, back.reverse, ?_, hfront, by simpa using hback, fun c hc => ?_, fun c hc => ?_⟩
  · rw [List.append_assoc, ← hcore]
    exact hs
  · refine head_trimStart s c ?_
    rw [hcore, List.head?_append_of_ne_nil _ (by rintro h; simp [h] at hc)]
    exact hc
  · refine head_trimStart (trimStart s).reverse c ?_
    rwa [trim, trimEnd, List.getLast?_reverse] at hc

theorem Trimmed.trim_eq {s core : List Char} (h : Trimmed s core) : trim s = core := by
  obtain ⟨front, back, rfl, hfront, hback, hhead, hlast⟩ := h
  have hback' : ∀ c ∈ back.reverse, isBlank c = true := by simpa using hback
  rw [trim, trimEnd, List.append_assoc, trimStart_append hfront]
  by_cases hcore : core = []
  · subst hcore
    rw [List.nil_append, ← List.append_nil back, trimStart_append hback]
    rfl
  · have hself : trimStart (core ++ back) = core ++ back :=
      trimStart_eq_self (by rwa [List.head?_append_of_ne_nil _ hcore])
    have hend : trimStart core.reverse = core.reverse :=
      trimStart_eq_self (by rwa [List.head?_reverse])
    rw [hself, List.reverse_append]
    change (trimStart (back.reverse ++ core.reverse)).reverse = core
    rw [trimStart_append hback', hend, List.reverse_reverse]

theorem trim_eq_iff {s core : List Char} : trim s = core ↔ Trimmed s core :=
  ⟨fun h => h ▸ trimmed_trim s, Trimmed.trim_eq⟩

def decimalValue (digits : List Char) : Nat := Nat.ofDigits 10 (digits.reverse.map digitValue)

theorem decimalValue_cons (c : Char) (rest : List Char) :
    decimalValue (c :: rest) = digitValue c * 10 ^ rest.length + decimalValue rest := by
  simp only [decimalValue, List.reverse_cons, List.map_append, Nat.ofDigits_append, List.map_cons,
    List.map_nil, Nat.ofDigits_singleton, List.length_map, List.length_reverse]
  ring

variable {limit n : Nat}

/-- The value never falls while digits are read, so that the limit is passed in the end if it is
passed at all. -/
theorem readDigits_eq_ok_iff {value : Nat} (h : value ≤ limit) (digits : List Char) :
    readDigits limit value digits = .ok n ↔
      (∀ c ∈ digits, c.isDigit = true) ∧
        value * 10 ^ digits.length + decimalValue digits = n ∧ n ≤ limit := by
  induction digits generalizing value with
  | nil =>
    have hvalue : value * 10 ^ 0 + 0 = value := by ring
    simp only [readDigits, List.length_nil, decimalValue, List.reverse_nil, List.map_nil,
      Nat.ofDigits_nil, hvalue, List.not_mem_nil, false_implies, implies_true, true_and,
      Except.ok.injEq]
    exact ⟨fun e => ⟨e, e ▸ h⟩, And.left⟩
  | cons c rest ih =>
    have hvalue : value * 10 ^ (c :: rest).length + decimalValue (c :: rest) =
        (10 * value + digitValue c) * 10 ^ rest.length + decimalValue rest := by
      rw [decimalValue_cons, List.length_cons]
      ring
    rw [readDigits, hvalue]
    by_cases hc : c.isDigit = true
    · rw [if_pos hc]
      by_cases hle : 10 * value + digitValue c ≤ limit
      · rw [if_pos hle, ih hle]
        simp only [List.forall_mem_cons, hc, true_and]
      · rw [if_neg hle]
        have hpos : 0 < 10 ^ rest.length := Nat.pow_pos (by decide)
        have hgrows := Nat.le_mul_of_pos_right (10 * value + digitValue c) hpos
        refine ⟨fun e => (by cases e), fun ⟨_, he, hn⟩ => ?_⟩
        omega
    · rw [if_neg hc]
      refine ⟨fun e => (by cases e), fun ⟨hd, _⟩ => ?_⟩
      exact absurd (hd c List.mem_cons_self) hc

/-- A text is a numeral for a number: digits, and one plus sign before them or none. -/
def IsNumeral (text : List Char) (n : Nat) : Prop :=
  ∃ digits, (text = digits ∨ text = '+' :: digits) ∧ digits ≠ [] ∧
    (∀ c ∈ digits, c.isDigit = true) ∧ decimalValue digits = n

theorem readDigits_zero_eq_ok_iff (digits : List Char) :
    readDigits limit 0 digits = .ok n ↔
      ((∀ c ∈ digits, c.isDigit = true) ∧ decimalValue digits = n) ∧ n ≤ limit := by
  rw [readDigits_eq_ok_iff (Nat.zero_le limit), Nat.zero_mul, Nat.zero_add, and_assoc]

theorem isNumeral_plus_iff (digits : List Char) :
    IsNumeral ('+' :: digits) n ↔
      digits ≠ [] ∧ (∀ c ∈ digits, c.isDigit = true) ∧ decimalValue digits = n := by
  constructor
  · rintro ⟨ds, rfl | he, hne, hd, hn⟩
    · exact absurd (hd '+' List.mem_cons_self) (by decide)
    · cases he
      exact ⟨hne, hd, hn⟩
  · exact fun ⟨hne, hd, hn⟩ => ⟨digits, .inr rfl, hne, hd, hn⟩

theorem isNumeral_iff {text : List Char} (h : ∀ rest, text ≠ '+' :: rest) :
    IsNumeral text n ↔
      text ≠ [] ∧ (∀ c ∈ text, c.isDigit = true) ∧ decimalValue text = n := by
  constructor
  · rintro ⟨ds, rfl | he, hne, hd, hn⟩
    · exact ⟨hne, hd, hn⟩
    · exact absurd he (h ds)
  · exact fun ⟨hne, hd, hn⟩ => ⟨text, .inl rfl, hne, hd, hn⟩

/-- A text is read as a number if and only if it is a numeral for it, however long, and the number is
within the limit. -/
theorem readUnsigned_eq_ok_iff (text : List Char) :
    readUnsigned limit text = .ok n ↔ IsNumeral text n ∧ n ≤ limit := by
  unfold readUnsigned
  split
  · simp [isNumeral_iff]
  · simp [isNumeral_plus_iff]
  · next digits hne =>
    rw [readDigits_zero_eq_ok_iff, isNumeral_plus_iff]
    have hdigits : digits ≠ [] := fun e => hne (e ▸ rfl)
    simp only [ne_eq, hdigits, not_false_iff, true_and]
  · next hne _ hplus =>
    rw [readDigits_zero_eq_ok_iff, isNumeral_iff hplus]
    simp only [ne_eq, show text ≠ [] from hne, not_false_iff, true_and]

end TenantQueue.Text
