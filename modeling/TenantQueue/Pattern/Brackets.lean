import TenantQueue.Pattern.Atom

/-! Sets of characters in square brackets. A set within a set, several members side by side, and
an operation on sets each add a level to the depth. -/
namespace TenantQueue.Pattern

def depthBeside : List Nat → Nat
  | [] => 0
  | [d] => d
  | ds => ds.foldl max 0 + 1

structure OpenSet where
  /-- The depth of what an operation is applied to on its left. -/
  left : Option Nat := none
  /-- The depths of the members since. -/
  members : List Nat := []
  /-- Nothing but minus signs was read. -/
  fresh : Bool := true
  deriving DecidableEq, Repr

namespace OpenSet

def depth (set : OpenSet) : Nat :=
  let right := depthBeside set.members
  match set.left with
  | none => right
  | some left => max left right + 1

def add (depth : Nat) (set : OpenSet) : OpenSet :=
  { set with members := depth :: set.members, fresh := false }

def operate (set : OpenSet) : OpenSet := ⟨some set.depth, [], false⟩

end OpenSet

def setNames : List String :=
  ["alnum", "alpha", "ascii", "blank", "cntrl", "digit", "graph", "lower", "print", "punct",
    "space", "upper", "word", "xdigit"]

def namedSet? : List Char → Option (Bool × List Char)
  | ':' :: s =>
    let (negated, s) := match s with
      | '^' :: s => (true, s)
      | s => (false, s)
    let name := s.takeWhile (· ≠ ':')
    match s.drop name.length with
    | ':' :: ']' :: s => if String.ofList name ∈ setNames then some (negated, s) else none
    | _ => none
  | _ => none

def isNamedMember (w : Switches) (negated : Bool) : Bool :=
  if w.unicode then !w.anyCase else !negated

/-- Of bytes, only those of whole characters are in sets. -/
def Atom.isMember (w : Switches) : Atom → Bool
  | .literal c _ => if w.unicode then !w.anyCase else c ≤ '\x7f'
  | .shorthand negated => !w.unicode && !negated
  | _ => false

def single (w : Switches) (c : Char) (s : List Char) : Option (Atom × List Char) := do
  let (a, s) ← if c = '\\' then escaped w s else some (.literal c false, s)
  if a.isMember w then some (a, s) else none

def beyondBlanks? (commented : Bool) : List Char → Option Char
  | [] => none
  | c :: s =>
    if Text.isBlank c then beyondBlanks? commented s
    else if !commented && c = '#' then beyondBlanks? true s
    else some c

def afterMinus? (w : Switches) (s : List Char) : Option Char :=
  if w.spaced then (beyondBlanks? false s).or s.head? else s.head?

/-- A member of a set, or a range of members. A minus sign before a closing bracket or another
minus sign makes no range. -/
def member (w : Switches) (c : Char) (s : List Char) : Option (List Char) := do
  let (first, s) ← single w c s
  match w.skip s with
  | '-' :: rest =>
    if afterMinus? w rest ∈ [some ']', some '-'] then some s
    else
      match w.skip rest with
      | [] => none
      | d :: rest =>
        match first, ← single w d rest with
        | .literal c _, (.literal d _, rest) => if c ≤ d then some rest else none
        | _, _ => none
  | _ => some s

def openSet (w : Switches) (s : List Char) : Option (List Char) :=
  match w.skip s with
  | '^' :: s => if w.unicode then some s else none
  | s => some s

def sets (w : Switches) : Nat → List OpenSet → List Char → Option (Nat × List Char)
  | fuel + 1, set :: outer, s =>
    match w.skip s with
    | [] => none
    | c :: s =>
      if set.fresh && (c = '-' || c = ']' && set.members = []) then
        if (Atom.literal c false).isMember w then
          sets w fuel ({ set.add 0 with fresh := c = '-' } :: outer) s
        else none
      else if c = '[' then
        match namedSet? s with
        | some (negated, s) =>
          if isNamedMember w negated then sets w fuel (set.add 0 :: outer) s else none
        | none => (openSet w s).bind fun s => sets w fuel ({} :: set :: outer) s
      else if c = ']' then
        match outer with
        | [] => some (set.depth + 1, s)
        | parent :: outer => sets w fuel (parent.add (set.depth + 1) :: outer) s
      else if c ∈ ['&', '-', '~'] ∧ s.head? = some c then
        sets w fuel (set.operate :: outer) (s.drop 1)
      else (member w c s).bind fun s => sets w fuel (set.add 0 :: outer) s
  | _, _, _ => none

def bracketed (w : Switches) (s : List Char) : Option (Nat × List Char) :=
  (openSet w s).bind fun s => sets w (s.length + 1) [{}] s

end TenantQueue.Pattern
