import TenantQueue.Decimal.Fixed
import TenantQueue.Decimal.Shortest

/-! JSON values as text, on one line or indented. -/
namespace TenantQueue.Json
open Decimal

inductive Value where
  | null
  | boolean (b : Bool)
  | integer (n : Nat)
  | number (x : Float)
  | text (s : String)
  | array (items : List Value)
  | object (members : List (String × Value))

namespace Writer

def escape (c : Char) : List Char :=
  if c = '"' ∨ c = '\\' then ['\\', c]
  else if c = '\x08' then ['\\', 'b']
  else if c = '\t' then ['\\', 't']
  else if c = '\n' then ['\\', 'n']
  else if c = '\x0c' then ['\\', 'f']
  else if c = '\r' then ['\\', 'r']
  else if c < ' ' then ['\\', 'u', '0', '0'] ++ hexPair c.toNat
  else [c]
where
  hexPair (n : Nat) : List Char :=
    let ds := Nat.toDigits 16 n
    List.replicate (2 - ds.length) '0' ++ ds

def quoted (s : String) : List Char := '"' :: s.toList.flatMap escape ++ ['"']

/-- Which numbers are written without an exponent: the place of their point lies above the first
bound and not above the second. -/
structure Positional where
  above : Int
  upTo : Int

def positional : Positional := ⟨-5, 16⟩

def layout (ds : List Char) (point : Int) : List Char :=
  let count : Int := ds.length
  if positional.above < point ∧ point ≤ positional.upTo then
    if count ≤ point then ds ++ List.replicate (point - count).toNat '0' ++ ['.', '0']
    else if 0 < point then ds.take point.toNat ++ '.' :: ds.drop point.toNat
    else ['0', '.'] ++ List.replicate (-point).toNat '0' ++ ds
  else
    let exponent := point - 1
    let sign := if exponent < 0 then '-' else '+'
    ds.take 1 ++ (if ds.length = 1 then [] else '.' :: ds.drop 1) ++
      'e' :: sign :: digits exponent.natAbs

/-- The shortest text that reads back as the number. What is no number is null. -/
def number (x : Float) : List Char :=
  match Binary.ofFloat x with
  | .nan => "null".toList
  | .infinite _ => "null".toList
  | .finite negative m e =>
    if m = 0 then signed negative "0.0".toList
    else
      let s := shortest m e
      let ds := digits s.d
      signed negative (layout ds (ds.length + s.k))

def atom : Value → List Char
  | .null => "null".toList
  | .boolean b => (toString b).toList
  | .integer n => digits n
  | .number x => number x
  | .text s => quoted s
  | .array _ => ['[', ']']
  | .object _ => ['\x7b', '\x7d']

mutual

def compactChars : Value → List Char
  | .array [] => ['[', ']']
  | .array (item :: items) => '[' :: compactChars item ++ compactItems items ++ [']']
  | .object [] => ['\x7b', '\x7d']
  | .object ((name, v) :: members) =>
    '\x7b' :: quoted name ++ ':' :: compactChars v ++ compactMembers members ++ ['\x7d']
  | v => atom v

def compactItems : List Value → List Char
  | [] => []
  | item :: items => ',' :: compactChars item ++ compactItems items

def compactMembers : List (String × Value) → List Char
  | [] => []
  | (name, v) :: members => ',' :: quoted name ++ ':' :: compactChars v ++ compactMembers members

end

def indentation (depth : Nat) : List Char := '\n' :: List.replicate (2 * depth) ' '

mutual

def prettyChars (depth : Nat) : Value → List Char
  | .array [] => ['[', ']']
  | .array (item :: items) =>
    '[' :: indentation (depth + 1) ++ prettyChars (depth + 1) item ++
      prettyItems (depth + 1) items ++ indentation depth ++ [']']
  | .object [] => ['\x7b', '\x7d']
  | .object ((name, v) :: members) =>
    '\x7b' :: indentation (depth + 1) ++ quoted name ++ ':' :: ' ' :: prettyChars (depth + 1) v ++
      prettyMembers (depth + 1) members ++ indentation depth ++ ['\x7d']
  | v => atom v

def prettyItems (depth : Nat) : List Value → List Char
  | [] => []
  | item :: items => ',' :: indentation depth ++ prettyChars depth item ++ prettyItems depth items

def prettyMembers (depth : Nat) : List (String × Value) → List Char
  | [] => []
  | (name, v) :: members =>
    ',' :: indentation depth ++ quoted name ++ ':' :: ' ' :: prettyChars depth v ++
      prettyMembers depth members

end

end Writer

def Value.compact (v : Value) : String := String.ofList (Writer.compactChars v)

def Value.pretty (v : Value) : String := String.ofList (Writer.prettyChars 0 v)

end TenantQueue.Json
