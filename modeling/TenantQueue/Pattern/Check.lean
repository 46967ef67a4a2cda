import TenantQueue.Pattern.Brackets

/-! Whether a text is a pattern that can be matched. -/
namespace TenantQueue.Pattern

inductive Fault where
  | malformed
  /-- Where words begin and end is not known beyond ASCII. -/
  | wordBoundary
  deriving DecidableEq, Repr

def Fault.message : Fault → String
  | .malformed => "error building NFA"
  | .wordBoundary =>
    "unsupported regex feature for DFAs: cannot build DFAs for regexes with Unicode word " ++
      "boundaries; switch to ASCII word boundaries, or heuristically enable Unicode word " ++
      "boundaries or use a different regex engine"

structure Group where
  /-- The switches before the group. -/
  before : Switches
  /-- The depths of the alternatives read. -/
  alternatives : List Nat := []
  /-- The depths of the items of the alternative that is being read, the last one first. Switches
  are items without a depth and cannot be repeated. -/
  items : List (Option Nat) := []
  deriving Repr

namespace Group

def depth (g : Group) : Nat :=
  depthBeside (depthBeside (g.items.map (·.getD 0)) :: g.alternatives)

def add (item : Option Nat) (g : Group) : Group := { g with items := item :: g.items }

def alternate (g : Group) : Group :=
  { g with alternatives := depthBeside (g.items.map (·.getD 0)) :: g.alternatives, items := [] }

def repeated (g : Group) : Option Group :=
  match g.items with
  | some d :: items => some { g with items := some (d + 1) :: items }
  | _ => none

end Group

structure Progress where
  switches : Switches := {}
  /-- The innermost group, and those around it. The last is the pattern as a whole. -/
  group : Group := { before := {} }
  outer : List Group := []
  names : List (List Char) := []
  /-- A word boundary stood among characters. -/
  wordBoundary : Bool := false
  deriving Repr

namespace Progress

def add (item : Option Nat) (p : Progress) : Progress := { p with group := p.group.add item }

def enter (p : Progress) : Opening → Option Progress
  | .switches w => some { p.add none with switches := w }
  | .group name w =>
    if name.any (· ∈ p.names) then none
    else some { p with
      switches := w, group := { before := p.switches }, outer := p.group :: p.outer,
      names := name.toList ++ p.names }

def leave (p : Progress) : Option Progress :=
  match p.outer with
  | [] => none
  | parent :: outer => some { p with
      switches := p.group.before, group := parent.add (some (p.group.depth + 1)), outer := outer }

def addAtom (p : Progress) (a : Atom) : Option Progress :=
  if a.isMeaningful p.switches then
    some { p.add (some 0) with
      wordBoundary := p.wordBoundary || a = .wordBoundary && p.switches.unicode }
  else none

def next (p : Progress) (c : Char) (s : List Char) : Option (Progress × List Char) :=
  if c = '(' then (opening p.switches s).bind fun (o, s) => (p.enter o).map (·, s)
  else if c = ')' then p.leave.map (·, s)
  else if c = '|' then some ({ p with group := p.group.alternate }, s)
  else if c = '[' then (bracketed p.switches s).map fun (d, s) => (p.add (some d), s)
  else if c ∈ ['?', '*', '+'] then
    p.group.repeated.map fun g =>
      ({ p with group := g }, if s.head? = some '?' then s.drop 1 else s)
  else if c = '\x7b' then none
  else (Atom.read p.switches c s).bind fun (a, s) => (p.addAtom a).map (·, s)

def read : Nat → Progress → List Char → Option Progress
  | 0, _, _ => none
  | fuel + 1, p, s =>
    match p.switches.skip s with
    | [] => if p.outer.isEmpty then some p else none
    | c :: s => (p.next c s).bind fun (p, s) => read fuel p s

end Progress

def depthLimit : Nat := 250

def fault? (s : List Char) : Option Fault :=
  match Progress.read (s.length + 1) {} s with
  | none => some .malformed
  | some p =>
    if depthLimit < p.group.depth then some .malformed
    else if p.wordBoundary then some .wordBoundary
    else none

end TenantQueue.Pattern
