import TenantQueue.Proofs.Key
import TenantQueue.Queue.Fair

/-! Keys with a slash in one of their parts. Such a key has no tenant, and a fair queue drops it. Its
text is dropped alike if it has more than one slash. Where the namespace is empty and the name has
one slash, the text can be split at that slash, and has a tenant. -/
namespace TenantQueue
open Queue

theorem tenantOf_of_many_slashes {text : String} (h : 1 < slashes text) :
    tenantOf text = .error (.unexpectedKey text) := by
  rcases splitKey_cases text with ⟨hzero, -⟩ | ⟨scope, name, rfl, hs, hn, -⟩ | ⟨-, hsplit⟩
  · omega
  · rw [slashes_join, slashes_eq_zero_iff.2 hs, slashes_eq_zero_iff.2 hn] at h
    omega
  · rw [tenantOf, hsplit]
    rfl

theorem exists_tenantOf {text : String} (h : slashes text ≤ 1) : ∃ t, tenantOf text = .ok t := by
  rcases splitKey_cases text with ⟨-, hsplit⟩ | ⟨scope, name, -, -, -, hsplit⟩ | ⟨hlt, -⟩
  · exact ⟨"", by rw [tenantOf, hsplit]; rfl⟩
  · exact ⟨scope, by rw [tenantOf, hsplit]; rfl⟩
  · exact absurd h (Nat.not_le_of_lt hlt)

namespace Queue.FairQueue
variable {α : Type} [DecidableEq α] [WorkItem α]

theorem add_of_error {x : α} {e : Error} (h : WorkItem.tenant x = .error e) (q : FairQueue α) :
    q.add x = (q, q.dropped "dropping item on add" x e) := by
  simp only [add, h]

theorem counts_add_of_ok {x : α} {t : String} (h : WorkItem.tenant x = .ok t) (q : FairQueue α) :
    (q.add x).2.counts = [.adds] := by
  simp only [add, h]

end Queue.FairQueue

namespace ObjectKey

theorem slashes_text (key : ObjectKey) :
    slashes key.text =
      if key.scope = "" then slashes key.name else slashes key.scope + slashes key.name + 1 := by
  rw [text]
  split
  · rfl
  · exact slashes_join key.scope key.name

/-- A slash too many in the key is one too many in its text, except for a lone one in a name that
stands alone. -/
theorem one_lt_slashes_text {key : ObjectKey}
    (h : '/' ∈ key.scope.toList ∨ '/' ∈ key.name.toList) :
    1 < slashes key.text ↔ ¬ (key.scope = "" ∧ slashes key.name = 1) := by
  have hstray : slashes key.scope + slashes key.name ≠ 0 := by
    intro hzero
    rw [Nat.add_eq_zero_iff, slashes_eq_zero_iff, slashes_eq_zero_iff] at hzero
    exact h.elim hzero.1 hzero.2
  rw [slashes_text]
  by_cases hscope : key.scope = ""
  · have hzero : slashes key.scope = 0 := by
      rw [hscope]
      rfl
    simp only [hscope, if_true, true_and]
    omega
  · simp only [hscope, if_false, false_and, not_false_iff, iff_true]
    omega

/-- A key with a slash in one of its parts has no tenant and is dropped. So is its text, for the same
reason, except where the namespace is empty and the name has one slash: then the text has a tenant
and is added. -/
theorem dropped_as_its_text (key : ObjectKey)
    (h : '/' ∈ key.scope.toList ∨ '/' ∈ key.name.toList) :
    (key.tenant = .error (.unexpectedKey key.text) ∧
      ∀ q : FairQueue ObjectKey,
        q.add key = (q, q.dropped "dropping item on add" key (.unexpectedKey key.text))) ∧
    (¬ (key.scope = "" ∧ slashes key.name = 1) →
      tenantOf key.text = .error (.unexpectedKey key.text) ∧
      ∀ q : FairQueue String,
        q.add key.text = (q, q.dropped "dropping item on add" key.text (.unexpectedKey key.text))) ∧
    (key.scope = "" ∧ slashes key.name = 1 →
      ∃ t, tenantOf key.text = .ok t ∧
        ∀ q : FairQueue String, (q.add key.text).2.counts = [.adds]) := by
  have hkey := tenant_of_slash h
  refine ⟨⟨hkey, FairQueue.add_of_error hkey⟩, fun hn => ?_, fun hlone => ?_⟩
  · have htext := tenantOf_of_many_slashes ((one_lt_slashes_text h).2 hn)
    exact ⟨htext, FairQueue.add_of_error htext⟩
  · have hle : slashes key.text ≤ 1 :=
      Nat.le_of_not_lt fun hlt => (one_lt_slashes_text h).1 hlt hlone
    obtain ⟨t, ht⟩ := exists_tenantOf hle
    exact ⟨t, ht, FairQueue.counts_add_of_ok ht⟩

/-- A namespace that ends in a slash, and no name: the text has two slashes. -/
theorem dropped_as_its_text_nested :
    let key : ObjectKey := ⟨"a/", ""⟩
    ('/' ∈ key.scope.toList ∨ '/' ∈ key.name.toList) ∧
      ¬ (key.scope = "" ∧ slashes key.name = 1) ∧
      key.tenant = .error (.unexpectedKey "a//") ∧
      tenantOf key.text = .error (.unexpectedKey "a//") ∧
      ∀ q : FairQueue String,
        q.add key.text = (q, q.dropped "dropping item on add" "a//" (.unexpectedKey "a//")) := by
  intro key
  have hslash : '/' ∈ key.scope.toList ∨ '/' ∈ key.name.toList := by decide
  have hscoped : ¬ (key.scope = "" ∧ slashes key.name = 1) := by decide
  have htext : key.text = "a//" := by decide
  obtain ⟨⟨hkey, -⟩, hboth, -⟩ := dropped_as_its_text key hslash
  obtain ⟨htenant, hadd⟩ := hboth hscoped
  rw [htext] at hkey htenant hadd
  exact ⟨hslash, hscoped, hkey, htext ▸ htenant, htext ▸ hadd⟩

/-- The name `a/b` without a namespace is dropped, its text is taken for a name of tenant `a`. -/
theorem lone_slash_kept_in_text :
    let key : ObjectKey := ⟨"", "a/b"⟩
    '/' ∈ key.name.toList ∧ key.tenant = .error (.unexpectedKey key.text) ∧
      (({} : FairQueue ObjectKey).add key).2.counts = [.dropped] ∧
      tenantOf key.text = .ok "a" ∧
      (¬ ∃ text reason, tenantOf key.text = .error (.invalidKey text reason)) ∧
      (({} : FairQueue String).add key.text).2.counts = [.adds] := by
  intro key
  have htext : tenantOf key.text = .ok "a" := by decide
  refine ⟨by decide, by decide, by decide, htext, ?_, by decide⟩
  rintro ⟨text, reason, h⟩
  rw [htext] at h
  cases h

end ObjectKey

end TenantQueue
