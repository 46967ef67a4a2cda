/-! Text as the operating system hands it over: bytes that need not be UTF-8. -/
namespace TenantQueue.Text

structure RawText where
  bytes : List UInt8
  deriving DecidableEq, Repr

namespace RawText

def ofString (s : String) : RawText := ⟨s.toUTF8.toList⟩

def text? (raw : RawText) : Option String := String.fromUTF8? ⟨raw.bytes.toArray⟩

def following (lead : UInt8) : Option (UInt8 × UInt8 × Nat) :=
  if lead < 0xC2 then none
  else if lead ≤ 0xDF then some (0x80, 0xBF, 1)
  else if lead = 0xE0 then some (0xA0, 0xBF, 2)
  else if lead = 0xED then some (0x80, 0x9F, 2)
  else if lead ≤ 0xEF then some (0x80, 0xBF, 2)
  else if lead = 0xF0 then some (0x90, 0xBF, 3)
  else if lead ≤ 0xF3 then some (0x80, 0xBF, 3)
  else if lead = 0xF4 then some (0x80, 0x8F, 3)
  else none

def continuing (low high : UInt8) : Nat → List UInt8 → Nat
  | count + 1, b :: rest => if low ≤ b ∧ b ≤ high then continuing 0x80 0xBF count rest + 1 else 0
  | _, _ => 0

/-- How many bytes the first character takes, and whether it is whole: a start of a character that
breaks off counts as far as it goes, any other byte on its own. -/
def firstCharacter : List UInt8 → Nat × Bool
  | [] => (0, true)
  | lead :: rest =>
    if lead < 0x80 then (1, true)
    else match following lead with
      | none => (1, false)
      | some (low, high, count) =>
        let found := continuing low high count rest
        (found + 1, found == count)

theorem firstCharacter_pos (lead : UInt8) (rest : List UInt8) :
    0 < (firstCharacter (lead :: rest)).1 := by
  simp only [firstCharacter]
  split
  · simp
  · cases following lead <;> simp

def characters : List UInt8 → List (List UInt8 × Bool)
  | [] => []
  | lead :: rest =>
    let first := firstCharacter (lead :: rest)
    ((lead :: rest).take first.1, first.2) :: characters ((lead :: rest).drop first.1)
  termination_by bytes => bytes.length
  decreasing_by
    have := firstCharacter_pos lead rest
    simp only [List.length_drop, List.length_cons]; omega

/-- Each run of bytes that is no character becomes one replacement character. -/
def lossy (raw : RawText) : String :=
  String.join ((characters raw.bytes).map fun piece =>
    if piece.2 then (RawText.text? ⟨piece.1⟩).getD "\ufffd" else "\ufffd")

end RawText

end TenantQueue.Text
