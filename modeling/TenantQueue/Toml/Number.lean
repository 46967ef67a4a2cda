import TenantQueue.Decimal.Rounding
import TenantQueue.Toml.Lexeme

/-! Numbers and moments in TOML documents. -/
namespace TenantQueue.Toml
open Decimal Text

def digitRun (isDigit : Char → Bool) : List Char → List Char → List Char × List Char
  | seen, '_' :: c :: rest =>
    if seen ≠ [] ∧ isDigit c then digitRun isDigit (c :: seen) rest
    else (seen.reverse, '_' :: c :: rest)
  | seen, c :: rest =>
    if isDigit c then digitRun isDigit (c :: seen) rest else (seen.reverse, c :: rest)
  | seen, [] => (seen.reverse, [])

def decimalRun (s : List Char) : Option (List Char × List Char) :=
  match digitRun Char.isDigit [] s with
  | ([], _) => none
  | run => some run

def sign : List Char → Bool × List Char
  | '-' :: rest => (true, rest)
  | '+' :: rest => (false, rest)
  | s => (false, s)

def wholePart : List Char → Option (List Char × List Char)
  | '0' :: rest => some (['0'], rest)
  | s => decimalRun s

def hexDigit (c : Char) : Nat := (hexValue? c).getD 0

def wordHalf : Nat := Nat.pow 2 63

def decimalInteger (s : List Char) : Option (Int × List Char) := do
  let (negative, rest) := sign s
  let (digits, rest) ← wholePart rest
  let n := digitsValue 10 digitOf digits
  if n ≤ (if negative then wordHalf else wordHalf - 1) then
    some (if negative then -(n : Int) else n, rest)
  else none

def basedInteger (base : Nat) (isDigit : Char → Bool) (s : List Char) :
    Option (Int × List Char) :=
  match digitRun isDigit [] s with
  | ([], _) => none
  | (digits, rest) =>
    let n := digitsValue base hexDigit digits
    if n < wordHalf then some ((n : Int), rest) else none

def integer : Reader Int
  | '0' :: 'x' :: rest => basedInteger 16 (fun c => (hexValue? c).isSome) rest
  | '0' :: 'o' :: rest => basedInteger 8 (fun c => '0' ≤ c && c ≤ '7') rest
  | '0' :: 'b' :: rest => basedInteger 2 (fun c => c = '0' || c = '1') rest
  | s => decimalInteger s

def fraction : List Char → Option (List Char × List Char)
  | '.' :: rest => decimalRun rest
  | s => some ([], s)

def exponent (s : List Char) : Option (Option Int × List Char) :=
  match s with
  | c :: rest =>
    if c = 'e' ∨ c = 'E' then do
      let (negative, rest) := sign rest
      let (digits, rest) ← decimalRun rest
      let n : Int := digitsValue 10 digitOf digits
      some (some (if negative then -n else n), rest)
    else some (none, s)
  | [] => some (none, [])

def special : List Char → Option (List Char)
  | 'i' :: 'n' :: 'f' :: rest => some rest
  | 'n' :: 'a' :: 'n' :: rest => some rest
  | _ => none

def float (s : List Char) : Option (List Char) :=
  let (negative, unsigned) := sign s
  match special unsigned with
  | some rest => some rest
  | none => do
    let (whole, rest) ← wholePart unsigned
    let (places, rest) ← fraction rest
    let (power, rest) ← exponent rest
    if places = [] ∧ power = none then none
    else if ¬negative ∧ overflows (whole ++ places) (power.getD 0 - places.length) then none
    else some rest

def fixedNumber (count : Nat) (s : List Char) : Option (Nat × List Char) :=
  let digits := s.take count
  if digits.length = count ∧ digits.all Char.isDigit then
    some (digitsValue 10 digitOf digits, s.drop count)
  else none

def daysIn (year month : Nat) : Nat :=
  if month = 2 then if year % 4 = 0 ∧ (year % 100 ≠ 0 ∨ year % 400 = 0) then 29 else 28
  else if month ∈ [4, 6, 9, 11] then 30 else 31

def expect (c : Char) : List Char → Option (List Char)
  | d :: rest => if d = c then some rest else none
  | [] => none

def date (s : List Char) : Option (List Char) := do
  let (year, rest) ← fixedNumber 4 s
  let (month, rest) ← fixedNumber 2 (← expect '-' rest)
  let (day, rest) ← fixedNumber 2 (← expect '-' rest)
  if 1 ≤ month ∧ month ≤ 12 ∧ 1 ≤ day ∧ day ≤ daysIn year month then some rest else none

def hourMinute (s : List Char) : Option (List Char) := do
  let (hour, rest) ← fixedNumber 2 s
  let (minute, rest) ← fixedNumber 2 (← expect ':' rest)
  if hour ≤ 23 ∧ minute ≤ 59 then some rest else none

def time (s : List Char) : Option (List Char) := do
  let (second, rest) ← fixedNumber 2 (← expect ':' (← hourMinute s))
  if 60 < second then none
  else match rest with
    | '.' :: rest =>
      let digits := rest.takeWhile Char.isDigit
      if digits = [] then none else some (rest.drop digits.length)
    | rest => some rest

def offset (s : List Char) : Option (List Char) :=
  match s with
  | c :: rest =>
    if c = 'Z' ∨ c = 'z' then some rest
    else if c = '+' ∨ c = '-' then hourMinute rest
    else some s
  | [] => some []

def startsTime (s : List Char) : Bool :=
  match fixedNumber 2 s with
  | some (_, ':' :: _) => true
  | _ => false

def startsDate (s : List Char) : Bool :=
  match fixedNumber 4 s with
  | some (_, '-' :: _) => true
  | _ => false

def moment (s : List Char) : Option (List Char) :=
  if startsDate s then do
    let rest ← date s
    match rest with
    | c :: after =>
      if c ∈ ['T', 't', ' '] ∧ startsTime after then offset (← time after) else some rest
    | [] => some []
  else time s

end TenantQueue.Toml
