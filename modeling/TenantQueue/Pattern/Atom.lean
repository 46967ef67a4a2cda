import TenantQueue.Pattern.Switches
import TenantQueue.Text.Hexadecimal

/-! What a pattern is made of at the least. -/
namespace TenantQueue.Pattern
open Text

inductive Atom where
  /-- A character. One that is given by two hexadecimal digits can be a byte. -/
  | literal (c : Char) (byte : Bool)
  | anyCharacter
  /-- Digits, blanks or the characters of words, or all the others. -/
  | shorthand (negated : Bool)
  /-- The start or the end of a text or line. -/
  | anchor
  | wordBoundary
  deriving DecidableEq, Repr

/-- Nothing is known of the cases and kinds of characters, and nothing but whole characters may be
matched. Hence characters in any case and kinds of characters have no meaning, and bytes none if
they might be a part of a character. -/
def Atom.isMeaningful (w : Switches) : Atom → Bool
  | .literal c byte => if w.unicode then !w.anyCase else !(byte && '\x7f' < c)
  | .anyCharacter => w.unicode
  | .shorthand negated => !w.unicode && !negated
  | .anchor | .wordBoundary => true

def hexNumber (w : Switches) : Nat → Nat → List Char → Option (Nat × List Char)
  | 0, n, s => some (n, s)
  | count + 1, n, s =>
    match w.skip s with
    | [] => none
    | c :: s => (hexValue? c).bind fun d => hexNumber w count (16 * n + d) s

def numbered (w : Switches) (count : Nat) (s : List Char) : Option (Atom × List Char) :=
  (hexNumber w count 0 s).bind fun (n, s) =>
    if n.isValidChar then some (.literal (Char.ofNat n) (count = 2), s) else none

def controlLetters : List (Char × Char) :=
  [('a', '\x07'), ('f', '\x0c'), ('t', '\t'), ('n', '\n'), ('r', '\r'), ('v', '\x0b')]

def escaped (w : Switches) : List Char → Option (Atom × List Char)
  | [] => none
  | c :: s =>
    if c = 'x' then numbered w 2 s
    else if c = 'u' then numbered w 4 s
    else if c = 'U' then numbered w 8 s
    else if c ∈ ['d', 's', 'w'] then some (.shorthand false, s)
    else if c ∈ ['D', 'S', 'W'] then some (.shorthand true, s)
    else if c ∈ ['A', 'z'] then some (.anchor, s)
    else if c ∈ ['b', 'B', '<', '>'] then some (.wordBoundary, s)
    else match controlLetters.lookup c with
      | some c => some (.literal c false, s)
      | none => if c ≤ '\x7f' && !c.isAlphanum then some (.literal c false, s) else none

def Atom.read (w : Switches) (c : Char) (s : List Char) : Option (Atom × List Char) :=
  if c = '\\' then escaped w s
  else if c = '.' then some (.anyCharacter, s)
  else if c = '^' ∨ c = '$' then some (.anchor, s)
  else some (.literal c false, s)

end TenantQueue.Pattern
