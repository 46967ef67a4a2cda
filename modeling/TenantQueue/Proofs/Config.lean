import TenantQueue.Config
import TenantQueue.Proofs.Text.Numeral

/-! What is accepted as the number of workers. -/
namespace TenantQueue.Config
open Text

/-- A text sets a number of workers: but for blanks at its ends it is a numeral for it, and the number
is positive and fits in a machine word. -/
def SetsWorkers (raw : String) (n : Nat) : Prop :=
  ∃ core, Trimmed raw.toList core ∧ IsNumeral core n ∧ 1 ≤ n ∧ n ≤ 2 ^ 64 - 1

theorem setsWorkers_iff {raw : String} {n : Nat} :
    SetsWorkers raw n ↔ readUnsigned wordLimit (trim raw.toList) = .ok n ∧ 1 ≤ n := by
  have hlimit : wordLimit = 2 ^ 64 - 1 := rfl
  simp only [SetsWorkers, ← trim_eq_iff, exists_eq_left', readUnsigned_eq_ok_iff, hlimit]
  exact ⟨fun ⟨hnum, hpos, hle⟩ => ⟨⟨hnum, hle⟩, hpos⟩,
    fun ⟨⟨hnum, hle⟩, hpos⟩ => ⟨hnum, hpos, hle⟩⟩

theorem readWorkers_cases (raw : String) :
    (∃ n, readWorkers raw = .ok n ∧ SetsWorkers raw n) ∨
      readWorkers raw = .error (.workersNotPositive raw) ∧ ∀ n, ¬ SetsWorkers raw n := by
  simp only [readWorkers, setsWorkers_iff]
  cases hread : readUnsigned wordLimit (trim raw.toList) with
  | error fault => simp
  | ok n =>
    by_cases hzero : n = 0
    · simp [hzero]
    · simp [hzero, Nat.one_le_iff_ne_zero]

variable {env : Environment} {raw : String}

theorem ofEnvironment_eq (h : env.text? "FAIRQ_WORKERS" = some raw) :
    ofEnvironment env = (readWorkers raw).map fun workers =>
      ⟨env.text? "OTEL_ENDPOINT", (env.text? "LOG_LEVEL").getD "info", workers⟩ := by
  rw [ofEnvironment, h]
  rfl

/-- A number of workers that is set is read if its text has the form of one, and then it is the number
that the digits stand for. Any other text is an error that quotes it as it was set. The other two
settings make no difference to that. -/
theorem workers_read_exactly (h : env.text? "FAIRQ_WORKERS" = some raw) :
    (∀ config, ofEnvironment env = .ok config ↔
      ∃ n, SetsWorkers raw n ∧
        config = ⟨env.text? "OTEL_ENDPOINT", (env.text? "LOG_LEVEL").getD "info", n⟩) ∧
    ((∀ n, ¬ SetsWorkers raw n) →
      ofEnvironment env =
        .error (.config ("FAIRQ_WORKERS must be a positive integer, got " ++ quoted raw))) := by
  rw [ofEnvironment_eq h]
  rcases readWorkers_cases raw with ⟨n, hread, hset⟩ | ⟨hread, hnone⟩
  · rw [hread]
    refine ⟨fun config => ⟨fun he => ?_, fun ⟨n', hset', he⟩ => ?_⟩, fun hnone => ?_⟩
    · cases he
      exact ⟨n, hset, rfl⟩
    · have hn : n = n' := by
        have hsame := (setsWorkers_iff.1 hset).1.symm.trans (setsWorkers_iff.1 hset').1
        exact Except.ok.inj hsame
      rw [he, hn]
      rfl
    · exact absurd hset (hnone n)
  · rw [hread]
    refine ⟨fun config => ⟨fun he => ?_, fun ⟨n, hset, _⟩ => ?_⟩, fun _ => rfl⟩
    · cases he
    · exact absurd hset (hnone n)

/-- An ideographic space, a plus sign, leading zeros, a space and a line feed are read. With quotes
around the digits the text is refused, and shown with its blanks. -/
theorem workers_read_with_zeros_and_blanks :
    let env : Environment :=
      [("LOG_LEVEL", ⟨[0x2D]⟩),
       ("FAIRQ_WORKERS", ⟨[0xE3, 0x80, 0x80, 0x2B, 0x30, 0x30, 0x37, 0x20, 0x0A]⟩)]
    let env' : Environment :=
      [("FAIRQ_WORKERS", ⟨[0xE3, 0x80, 0x80, 0x22, 0x37, 0x22, 0x20, 0x0A]⟩)]
    env.text? "FAIRQ_WORKERS" = some "\u3000+007 \n" ∧ ofEnvironment env = .ok ⟨none, "-", 7⟩ ∧
      env'.text? "FAIRQ_WORKERS" = some "\u3000\"7\" \n" ∧
      ofEnvironment env' = .error (.config
        "FAIRQ_WORKERS must be a positive integer, got \"\\u\x7b3000\x7d\\\"7\\\" \\n\"") := by
  intro env env'
  have hraw : env.text? "FAIRQ_WORKERS" = some "\u3000+007 \n" := by decide
  have hfront : ∀ c ∈ "\u3000".toList, isBlank c = true := List.all_eq_true.1 (by decide)
  have hback : ∀ c ∈ " \n".toList, isBlank c = true := List.all_eq_true.1 (by decide)
  have hdigits : ∀ c ∈ "007".toList, c.isDigit = true := List.all_eq_true.1 (by decide)
  have hcore : Trimmed "\u3000+007 \n".toList "+007".toList :=
    ⟨_, _, rfl, hfront, hback, by rintro _ ⟨⟩; decide, by rintro _ ⟨⟩; decide⟩
  have hnum : IsNumeral "+007".toList 7 := ⟨"007".toList, .inr rfl, by decide, hdigits, by decide⟩
  have hset : SetsWorkers "\u3000+007 \n" 7 := ⟨_, hcore, hnum, by decide⟩
  have hraw' : env'.text? "FAIRQ_WORKERS" = some "\u3000\"7\" \n" := by decide
  have hnone (n : Nat) : ¬ SetsWorkers "\u3000\"7\" \n" n := by
    intro hset'
    have hread := (setsWorkers_iff.1 hset').1
    cases hread
  have hquoted : quoted "\u3000\"7\" \n" = "\"\\u\x7b3000\x7d\\\"7\\\" \\n\"" := by
    decide +kernel
  have hrefused := (workers_read_exactly hraw').2 hnone
  rw [hquoted] at hrefused
  exact ⟨hraw, ((workers_read_exactly hraw).1 _).2 ⟨7, hset, by decide⟩, hraw', hrefused⟩

end TenantQueue.Config
