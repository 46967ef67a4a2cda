import TenantQueue.Text.Alphanumeric
import TenantQueue.Text.Blank
import TenantQueue.Text.Numeric

/-! The switches that a pattern is read with, and the heads of groups, where they can be set. -/
namespace TenantQueue.Pattern
open Text

structure Switches where
  /-- Letters stand for both of their cases. -/
  anyCase : Bool := false
  /-- What is matched are characters, and not bytes. -/
  unicode : Bool := true
  /-- Blanks and comments do not count. -/
  spaced : Bool := false
  deriving DecidableEq, Repr

def skipBlanks (commented : Bool) : List Char → List Char
  | [] => []
  | c :: s =>
    if commented then skipBlanks (c ≠ '\n') s
    else if isBlank c then skipBlanks false s
    else if c = '#' then skipBlanks true s
    else c :: s

namespace Switches

def skip (w : Switches) (s : List Char) : List Char := if w.spaced then skipBlanks false s else s

def set? (w : Switches) (on : Bool) (c : Char) : Option Switches :=
  if c = 'i' then some { w with anyCase := on }
  else if c = 'u' then some { w with unicode := on }
  else if c = 'x' then some { w with spaced := on }
  else if c ∈ ['m', 's', 'U', 'R'] then some w
  else none

end Switches

inductive Opening where
  /-- No group: the switches hold up to the end of the group around them. -/
  | switches (w : Switches)
  | group (name : Option (List Char)) (w : Switches)
  deriving DecidableEq, Repr

/-- Letters that turn switches on, or off after a minus sign, which must not be the last. None is
given twice. A colon begins a group. -/
def switchLetters (w : Switches) (seen : List Char) : List Char → Option (Opening × List Char)
  | [] => none
  | c :: s =>
    if c = ':' ∧ seen.head? ≠ some '-' then some (.group none w, s)
    else if c = ')' ∧ seen.head? ≠ some '-' ∧ seen ≠ [] then some (.switches w, s)
    else if c ∈ seen then none
    else if c = '-' then switchLetters w ('-' :: seen) s
    else (w.set? ('-' ∉ seen) c).bind fun w => switchLetters w (c :: seen) s

def isAlphabetic (c : Char) : Bool := alphanumeric.has c && !numeric.has c

def isName : List Char → Bool
  | [] => false
  | c :: s =>
    (c = '_' || isAlphabetic c) && s.all fun c => c ∈ ['_', '.', '[', ']'] || alphanumeric.has c

def groupName (w : Switches) (s : List Char) : Option (Opening × List Char) :=
  let name := s.takeWhile (· ≠ '>')
  match s.drop name.length with
  | [] => none
  | _ :: s => if isName name then some (.group (some name) w, s) else none

def opening (w : Switches) (s : List Char) : Option (Opening × List Char) :=
  match w.skip s with
  | '?' :: 'P' :: '<' :: s => groupName w s
  | '?' :: '<' :: s => groupName w s
  | '?' :: s => switchLetters w [] s
  | s => some (.group none w, s)

end TenantQueue.Pattern
