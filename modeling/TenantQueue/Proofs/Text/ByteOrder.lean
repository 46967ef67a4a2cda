import Mathlib.Data.String.Basic

/-! The order of texts. Their UTF-8 bytes are in the same order as their characters, since the bytes
of a character are in the order of its code point, whatever follows them. -/
namespace TenantQueue.Text

def bytes (s : String) : List UInt8 := s.toUTF8.data.toList

theorem bytes_eq_flatMap (s : String) : bytes s = s.toList.flatMap String.utf8EncodeChar := by
  have hencode : s.toUTF8 = s.toList.utf8Encode := String.utf8Encode_toList.symm
  rw [bytes, hencode, List.utf8Encode, List.data_toByteArray]

theorem cons_lt_cons {a b : Nat} (h : a < b) (hb : b < 256) (x y : List UInt8) :
    UInt8.ofNat a :: x < UInt8.ofNat b :: y := by
  rw [List.cons_lt_cons_iff]
  exact .inl ((UInt8.ofNat_lt_iff_lt (Nat.lt_trans h hb) hb).2 h)

/-- A code point in `n + 1` bytes: the first byte has its leading bits and tells the number of bytes,
each of the others has six bits. -/
def sextets (mark : Nat) : Nat → Nat → List UInt8
  | 0, v => [UInt8.ofNat (v + mark)]
  | n + 1, v => sextets mark n (v / 64) ++ [UInt8.ofNat (v % 64 + 128)]

theorem sextets_eq_cons (mark n v : Nat) :
    ∃ rest, sextets mark n v = UInt8.ofNat (v / 64 ^ n + mark) :: rest := by
  induction n generalizing v with
  | zero => exact ⟨[], by simp [sextets]⟩
  | succ n ih =>
    obtain ⟨rest, hrest⟩ := ih (v / 64)
    refine ⟨rest ++ [UInt8.ofNat (v % 64 + 128)], ?_⟩
    rw [sextets, hrest, Nat.div_div_eq_div_mul, ← Nat.pow_succ', List.cons_append]

theorem sextets_lt {mark n v w : Nat} (h : v < w) (hw : w / 64 ^ n + mark < 256)
    (x y : List UInt8) : sextets mark n v ++ x < sextets mark n w ++ y := by
  induction n generalizing v w x y with
  | zero =>
    rw [Nat.pow_zero, Nat.div_one] at hw
    exact cons_lt_cons (Nat.add_lt_add_right h mark) hw x y
  | succ n ih =>
    have hdigits : v / 64 < w / 64 ∨ v / 64 = w / 64 ∧ v % 64 < w % 64 := by omega
    rw [sextets, sextets, List.append_assoc, List.append_assoc]
    rcases hdigits with hlt | ⟨heq, hlt⟩
    · refine ih hlt ?_ _ _
      rwa [Nat.div_div_eq_div_mul, ← Nat.pow_succ']
    · rw [heq]
      exact List.append_left_lt (cons_lt_cons (by omega) (by omega) x y)

def following (v : Nat) : Nat :=
  if v ≤ 0x7f then 0 else if v ≤ 0x7ff then 1 else if v ≤ 0xffff then 2 else 3

def mark : Nat → Nat
  | 0 => 0
  | 1 => 0xc0
  | 2 => 0xe0
  | _ => 0xf0

theorem utf8EncodeChar_eq_sextets (c : Char) :
    String.utf8EncodeChar c =
      sextets (mark (following c.val.toNat)) (following c.val.toNat) c.val.toNat := by
  have hvalid : c.val.toNat < 0xd800 ∨ 0xdfff < c.val.toNat ∧ c.val.toNat < 0x110000 := c.valid
  simp only [String.utf8EncodeChar, following]
  generalize c.val.toNat = v at *
  by_cases h₁ : v ≤ 0x7f
  · simp [h₁, mark, sextets]
  · by_cases h₂ : v ≤ 0x7ff
    · have : v / 64 % 32 = v / 64 := by omega
      simp [h₁, h₂, mark, sextets, this]
    · by_cases h₃ : v ≤ 0xffff
      · have : v / 4096 % 16 = v / 4096 := by omega
        simp [h₁, h₂, h₃, mark, sextets, this, Nat.div_div_eq_div_mul]
      · have : v / 262144 % 8 = v / 262144 := by omega
        simp [h₁, h₂, h₃, mark, sextets, this, Nat.div_div_eq_div_mul]

def firstByte (v : Nat) : Nat := v / 64 ^ following v + mark (following v)

theorem firstByte_cases (v : Nat) :
    v ≤ 0x7f ∧ following v = 0 ∧ firstByte v = v ∨
    0x7f < v ∧ v ≤ 0x7ff ∧ following v = 1 ∧ firstByte v = v / 64 + 0xc0 ∨
    0x7ff < v ∧ v ≤ 0xffff ∧ following v = 2 ∧ firstByte v = v / 4096 + 0xe0 ∨
    0xffff < v ∧ following v = 3 ∧ firstByte v = v / 262144 + 0xf0 := by
  unfold firstByte following
  by_cases h₁ : v ≤ 0x7f
  · simp [h₁, mark]
  · by_cases h₂ : v ≤ 0x7ff
    · simp [h₁, h₂, mark, Nat.not_le.1 h₁]
    · by_cases h₃ : v ≤ 0xffff
      · simp [h₁, h₂, h₃, mark, Nat.not_le.1 h₂]
      · simp [h₁, h₂, h₃, mark, Nat.not_le.1 h₃]

/-- Of two lengths the longer has the greater first byte, of one length the first difference decides. -/
theorem utf8EncodeChar_lt {c d : Char} (h : c < d) (x y : List UInt8) :
    String.utf8EncodeChar c ++ x < String.utf8EncodeChar d ++ y := by
  have hlt : c.val.toNat < d.val.toNat := h
  have hvalid : d.val.toNat < 0xd800 ∨ 0xdfff < d.val.toNat ∧ d.val.toNat < 0x110000 := d.valid
  have hc := firstByte_cases c.val.toNat
  have hd := firstByte_cases d.val.toNat
  have hbyte : firstByte d.val.toNat < 256 := by omega
  rw [utf8EncodeChar_eq_sextets, utf8EncodeChar_eq_sextets]
  by_cases hsame : following c.val.toNat = following d.val.toNat
  · rw [hsame]
    exact sextets_lt hlt hbyte x y
  · obtain ⟨rest, hfirst⟩ := sextets_eq_cons (mark _) (following c.val.toNat) c.val.toNat
    obtain ⟨rest', hfirst'⟩ := sextets_eq_cons (mark _) (following d.val.toNat) d.val.toNat
    have hless : firstByte c.val.toNat < firstByte d.val.toNat := by omega
    rw [hfirst, hfirst']
    exact cons_lt_cons hless hbyte _ _

theorem bytes_lt_of_lt {a b : String} (h : a < b) : bytes a < bytes b := by
  have hlex : List.Lex (· < ·) a.toList b.toList := h
  rw [bytes_eq_flatMap, bytes_eq_flatMap]
  generalize a.toList = s at hlex ⊢
  generalize b.toList = t at hlex ⊢
  induction hlex with
  | @nil d t =>
    obtain ⟨b, rest, hd⟩ := List.exists_cons_of_ne_nil (String.utf8EncodeChar_ne_nil (c := d))
    rw [List.flatMap_cons, hd]
    exact List.nil_lt_cons b (rest ++ t.flatMap String.utf8EncodeChar)
  | rel hcd => exact utf8EncodeChar_lt hcd _ _
  | cons _ ih => exact List.append_left_lt ih

theorem bytes_lt_iff {a b : String} : bytes a < bytes b ↔ a < b := by
  refine ⟨fun h => ?_, bytes_lt_of_lt⟩
  rcases lt_trichotomy a b with hlt | rfl | hgt
  · exact hlt
  · exact absurd h (List.lt_irrefl _)
  · exact absurd (List.lt_trans h (bytes_lt_of_lt hgt)) (List.lt_irrefl _)

end TenantQueue.Text
