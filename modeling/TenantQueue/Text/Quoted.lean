import TenantQueue.Text.GraphemeExtend
import TenantQueue.Text.Unprintable

/-! Text in double quotes, fit for one line: what cannot be seen on its own is escaped. -/
namespace TenantQueue.Text

def codePointEscape (c : Char) : List Char :=
  ['\\', 'u', '\x7b'] ++ Nat.toDigits 16 c.toNat ++ ['\x7d']

def fillers : CodePoints := [(0x115F, 0x1160), (0x3164, 0x3164), (0xFFA0, 0xFFA0)]

/-- Halfwidth sound marks extend the character before them, but take a place of their own. -/
def soundMarks : CodePoints := [(0xFF9E, 0xFF9F)]

/-- Whether a character has no visible form of its own: an unprintable one, a filler, or one that
is drawn onto the character before it. -/
def isHidden (c : Char) : Bool :=
  graphemeExtend.has c && !soundMarks.has c || unprintable.has c || fillers.has c

def escape (c : Char) : List Char :=
  if c = '\x00' then ['\\', '0']
  else if c = '\t' then ['\\', 't']
  else if c = '\r' then ['\\', 'r']
  else if c = '\n' then ['\\', 'n']
  else if c = '"' ∨ c = '\\' then ['\\', c]
  else if isHidden c then codePointEscape c
  else [c]

def quoted (s : String) : String :=
  String.ofList ('"' :: s.toList.flatMap escape ++ ['"'])

theorem toList_quoted (s : String) :
    (quoted s).toList = '"' :: (s.toList.flatMap escape ++ ['"']) := by
  simp [quoted]

end TenantQueue.Text
