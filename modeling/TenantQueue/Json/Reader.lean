import TenantQueue.Decimal.Rounding
import TenantQueue.Text.Hexadecimal

/-! Reading JSON from the left, with the first fault found. A reader returns what it has read and
the rest of the text. -/
namespace TenantQueue.Json
open Decimal Text

inductive Fault where
  /-- The text breaks the grammar. -/
  | malformed
  /-- The value does not have the shape that is asked for. -/
  | unfit
  /-- The text ends too early. -/
  | ended
  deriving DecidableEq, Repr

abbrev Reader (α : Type) := List Char → Except Fault (α × List Char)

namespace Reader

def skipSpace (s : List Char) : List Char := s.dropWhile fun c => c ∈ [' ', '\n', '\t', '\r']

def word : List Char → List Char → Except Fault (List Char)
  | [], s => .ok s
  | _, [] => .error .ended
  | c :: expected, d :: s => if d = c then word expected s else .error .malformed

def byteCount (s : List Char) : Nat := s.foldl (fun n c => n + c.utf8Size) 0

/-- Four hexadecimal digits. The text ends too early if fewer than four bytes are left. -/
def hexUnit (s : List Char) : Except Fault (Nat × List Char) :=
  if byteCount (s.take 4) < 4 then .error .ended
  else
    match (s.take 4).mapM hexValue? with
    | some [a, b, c, d] => .ok (((a * 16 + b) * 16 + c) * 16 + d, s.drop 4)
    | _ => .error .malformed

def unicodeEscape (s : List Char) : Except Fault (Char × List Char) := do
  let (n, s) ← hexUnit s
  if 0xDC00 ≤ n ∧ n ≤ 0xDFFF then .error .malformed
  else if n < 0xD800 ∨ 0xDBFF < n then .ok (Char.ofNat n, s)
  else
    let s ← word ['\\', 'u'] s
    let (low, s) ← hexUnit s
    if 0xDC00 ≤ low ∧ low ≤ 0xDFFF then
      .ok (Char.ofNat (0x10000 + (n - 0xD800) * 0x400 + (low - 0xDC00)), s)
    else .error .malformed

def escaped (skipped : Bool) : Reader Char
  | [] => .error .ended
  | c :: s =>
    if c = 'u' then if skipped then (hexUnit s).map fun (_, s) => ('u', s) else unicodeEscape s
    else
      match [('"', '"'), ('\\', '\\'), ('/', '/'), ('b', '\x08'), ('f', '\x0c'), ('n', '\n'),
        ('r', '\r'), ('t', '\t')].lookup c with
      | some c => .ok (c, s)
      | none => .error .malformed

def stringFrom (skipped : Bool) : Nat → List Char → Reader String
  | fuel + 1, seen, c :: s =>
    if c = '"' then .ok (String.ofList seen.reverse, s)
    else if c = '\\' then do
      let (c, s) ← escaped skipped s
      stringFrom skipped fuel (c :: seen) s
    else if c < ' ' then .error .malformed
    else stringFrom skipped fuel (c :: seen) s
  | _, _, _ => .error .ended

def string (skipped : Bool) (s : List Char) : Except Fault (String × List Char) :=
  stringFrom skipped (s.length + 1) [] s

inductive Number where
  | natural (n : Nat)
  | other
  deriving DecidableEq, Repr

def someDigits (atEnd : Fault) (s : List Char) : Except Fault (List Char × List Char) :=
  match s.takeWhile Char.isDigit, s with
  | [], [] => .error atEnd
  | [], _ => .error .malformed
  | ds, s => .ok (ds, s.drop ds.length)

def wholePart (atEnd : Fault) (s : List Char) : Except Fault (List Char × List Char) := do
  let (ds, s) ← someDigits atEnd s
  if ds.length ≠ 1 ∧ ds.head? = some '0' then .error .malformed else .ok (ds, s)

def fraction (atEnd : Fault) : Reader (Option (List Char))
  | '.' :: s => (someDigits atEnd s).map fun (ds, s) => (some ds, s)
  | s => .ok (none, s)

def exponent (atEnd : Fault) (s : List Char) : Except Fault (Option Int × List Char) :=
  match s with
  | c :: rest =>
    if c = 'e' ∨ c = 'E' then do
      let (negative, rest) := match rest with
        | '-' :: rest => (true, rest)
        | '+' :: rest => (false, rest)
        | rest => (false, rest)
      let (ds, rest) ← someDigits atEnd rest
      let n : Int := digitsValue 10 digitOf ds
      .ok (some (if negative then -n else n), rest)
    else .ok (none, s)
  | [] => .ok (none, [])

def leading (n : Nat) : List Char → Nat × Nat
  | [] => (n, 0)
  | c :: ds =>
    if 10 * n + digitOf c < Nat.pow 2 64 then leading (10 * n + digitOf c) ds
    else (n, ds.length + 1)

def outOfRange (n : Nat) (k : Int) : Bool :=
  if k ≤ 308 then overflowBound ≤ nearestBinary n * nearestBinary (Nat.pow 10 k.toNat)
  else n ≠ 0

/-- A number. One that is skipped may be of any size, and its digits may not break off; one that is
read has to fit a floating-point number by its leading digits, and is natural if it is written
without a sign, fraction and exponent and fits a machine word. -/
def number (skipped : Bool) (s : List Char) : Except Fault (Number × List Char) := do
  let atEnd := if skipped then .malformed else .ended
  let (negative, s) := match s with
    | '-' :: s => (true, s)
    | s => (false, s)
  let (whole, s) ← wholePart atEnd s
  let (places, s) ← fraction atEnd s
  let (power, s) ← exponent atEnd s
  let decimals := places.getD []
  let (n, left) := leading 0 whole
  let (m, ignored) := leading n decimals
  if !negative && places.isNone && power.isNone && left = 0 then .ok (.natural n, s)
  else if !skipped && outOfRange m (power.getD 0 + left + ignored - decimals.length) then
    .error .malformed
  else .ok (.other, s)

def scalar (skipped : Bool) (s : List Char) : Except Fault (Number × List Char) :=
  match s with
  | [] => .error .ended
  | c :: rest =>
    if c = 'n' then (word "ull".toList rest).map fun s => (.other, s)
    else if c = 't' then (word "rue".toList rest).map fun s => (.other, s)
    else if c = 'f' then (word "alse".toList rest).map fun s => (.other, s)
    else if c = '"' then (string skipped rest).map fun (_, s) => (.other, s)
    else if c = '-' ∨ c.isDigit then number skipped s
    else .error .malformed

def memberName (skipped : Bool) (s : List Char) : Except Fault (String × List Char) :=
  match skipSpace s with
  | '"' :: s => string skipped s
  | [] => .error .ended
  | _ => .error .malformed

def colon (s : List Char) : Except Fault (List Char) := word [':'] (skipSpace s)

mutual

def skip : Nat → List Char → Except Fault (List Char)
  | 0, _ => .error .ended
  | fuel + 1, s =>
    match skipSpace s with
    | '[' :: s =>
      match skipSpace s with
      | ']' :: s => .ok s
      | [] => .error .ended
      | s => skipItems fuel s
    | '\x7b' :: s =>
      match skipSpace s with
      | '\x7d' :: s => .ok s
      | s => skipMembers fuel s
    | s => (scalar true s).map Prod.snd

def skipItems : Nat → List Char → Except Fault (List Char)
  | 0, _ => .error .ended
  | fuel + 1, s => do
    match skipSpace (← skip fuel s) with
    | ',' :: s => skipItems fuel s
    | ']' :: s => .ok s
    | [] => .error .ended
    | _ => .error .malformed

def skipMembers : Nat → List Char → Except Fault (List Char)
  | 0, _ => .error .ended
  | fuel + 1, s => do
    let (_, s) ← memberName true s
    match skipSpace (← skip fuel (← colon s)) with
    | ',' :: s => skipMembers fuel s
    | '\x7d' :: s => .ok s
    | [] => .error .ended
    | _ => .error .malformed

end

def natural (s : List Char) : Except Fault (Nat × List Char) := do
  match skipSpace s with
  | '[' :: _ => .error .unfit
  | '\x7b' :: _ => .error .unfit
  | s =>
    match ← scalar false s with
    | (.natural n, s) => .ok (n, s)
    | (.other, _) => .error .unfit

end Reader

end TenantQueue.Json
