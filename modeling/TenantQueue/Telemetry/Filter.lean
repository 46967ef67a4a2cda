import TenantQueue.Pattern.Check
import TenantQueue.Text.Numeral

/-! Log filters: directives separated by commas, each of them a level, or a target, a span with
fields, or both, perhaps with a level after an equals sign. A field may have a value, which is a
number or a pattern. -/
namespace TenantQueue.Telemetry
open Text

inductive FilterFault where
  | directive
  | level
  | field (fault : Pattern.Fault)
  deriving DecidableEq, Repr

def FilterFault.message : FilterFault → String
  | .directive => "invalid filter directive"
  | .level =>
    "error parsing level filter: expected one of \"off\", \"error\", \"warn\", \"info\", " ++
      "\"debug\", \"trace\", or a number 0-5"
  | .field fault => "invalid field filter: " ++ fault.message

namespace Filter

def isLevel (s : List Char) : Bool :=
  match readUnsigned wordLimit s with
  | .ok n => n ≤ 5
  | .error _ =>
    (String.ofList (s.map Char.toLower)) ∈ ["", "error", "warn", "info", "debug", "trace", "off"]

def dropBytes : Nat → List Char → List Char
  | _, [] => []
  | 0, s => s
  | n + 1, c :: s => dropBytes (n + 1 - c.utf8Size) s

/-- Blanks around a directive are skipped when its parts are found, but the level's text is taken
from where its offset points in the text with the blanks. -/
def levelFault (whole : List Char) (offset : Nat) : Option FilterFault :=
  if isLevel (dropBytes offset whole) then none else some .level

def afterSpan (whole : List Char) (offset : Nat) : List Char → Option FilterFault
  | [] => none
  | '=' :: _ => levelFault whole (offset + 1)
  | _ => some .directive

def isSign (c : Char) : Bool := c = '+' || c = '-'

def isExponent : List Char → Bool
  | [] => true
  | e :: s =>
    let ds := match s with
      | [] => []
      | c :: rest => if isSign c then rest else s
    (e = 'e' || e = 'E') && ds ≠ [] && ds.all Char.isDigit

def isDecimal (s : List Char) : Bool :=
  let whole := s.takeWhile Char.isDigit
  let s := s.drop whole.length
  let (places, s) := match s with
    | '.' :: s => (s.takeWhile Char.isDigit, s.dropWhile Char.isDigit)
    | s => ([], s)
  (whole ≠ [] || places ≠ []) && isExponent s

def isNumber (s : List Char) : Bool :=
  let s := match s with
    | [] => []
    | c :: rest => if isSign c then rest else s
  isDecimal s || String.ofList (s.map Char.toLower) ∈ ["inf", "infinity", "nan"]

/-- What the value of a field, between its first equals sign and the next one, is at fault with. A
field need not have a value. -/
def fieldFault? (field : List Char) : Option Pattern.Fault :=
  match field.dropWhile (· ≠ '=') with
  | [] => none
  | _ :: rest =>
    let value := rest.takeWhile (· ≠ '=')
    if isNumber value then none else Pattern.fault? value

def takeBytes : Nat → List Char → List Char
  | _, [] => []
  | 0, _ => []
  | n + 1, c :: s => c :: takeBytes (n + 1 - c.utf8Size) s

/-- The field of a span, which is not empty, up to the end of the span. As with levels, its text is
taken from where its offsets point in the text with the blanks. -/
def field (whole : List Char) (start : Nat) : Nat → List Char → Option FilterFault
  | offset, c :: rest =>
    if c = '\x7d' then
      if offset = start then some .directive
      else match fieldFault? (takeBytes (offset - start) (dropBytes start whole)) with
        | some fault => some (.field fault)
        | none =>
          match rest with
          | ']' :: rest => afterSpan whole (offset + 2) rest
          | _ => some .directive
    else field whole start (offset + c.utf8Size) rest
  | _, [] => some .directive

def span (whole : List Char) : Nat → List Char → Option FilterFault
  | offset, c :: rest =>
    if c = ']' then afterSpan whole (offset + 1) rest
    else if c = '\x7b' then field whole (offset + 1) (offset + 1) rest
    else span whole (offset + c.utf8Size) rest
  | _, [] => some .directive

def target (whole : List Char) : Nat → List Char → Option FilterFault
  | offset, c :: rest =>
    if c = '=' then levelFault whole (offset + 1)
    else if c = '[' then span whole (offset + 1) rest
    else target whole (offset + c.utf8Size) rest
  | _, [] => none

def directiveFault (whole : List Char) : Option FilterFault :=
  match trim whole with
  | [] => some .directive
  | '[' :: rest => span whole 1 rest
  | c :: rest =>
    if c ∈ ['-', ':', '_'] ∨ alphanumeric.has c then target whole 0 (c :: rest)
    else some .directive

def fault? (filter : String) : Option FilterFault :=
  ((filter.splitOn ",").filter (· ≠ "")).findSome? fun d => directiveFault d.toList

end Filter

end TenantQueue.Telemetry
