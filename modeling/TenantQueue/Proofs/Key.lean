import TenantQueue.Key
import Mathlib.Data.List.TakeWhile

/-! Keys and their texts. The text of a key that has a tenant is split where the key was put
together, so that it has the same tenant and is the text of no other such key. -/
namespace TenantQueue

theorem ne_slash {text : String} (h : '/' ∉ text.toList) :
    ∀ c ∈ text.toList, decide (c ≠ '/') = true := by
  intro c hc
  refine decide_eq_true ?_
  rintro rfl
  exact h hc

theorem splitKey_of_unscoped {key : String} (h : '/' ∉ key.toList) :
    splitKey key = .ok ("", key) := by
  rw [splitKey, List.dropWhile_eq_nil_iff.2 (ne_slash h)]

/-- A text is split at its first slash, and refused if there is another after it. -/
theorem splitKey_at {scope : String} (hs : '/' ∉ scope.toList) (name : String) :
    splitKey (scope ++ "/" ++ name) =
      if '/' ∈ name.toList then .error (.unexpectedKey (scope ++ "/" ++ name))
      else .ok (scope, name) := by
  have htext : (scope ++ "/" ++ name).toList = scope.toList ++ '/' :: name.toList := by simp
  have hrest : (scope.toList ++ '/' :: name.toList).dropWhile (· ≠ '/') = '/' :: name.toList := by
    rw [List.dropWhile_append_of_pos (ne_slash hs)]
    rfl
  have hfront : (scope.toList ++ '/' :: name.toList).takeWhile (· ≠ '/') = scope.toList := by
    rw [List.takeWhile_append_of_pos (ne_slash hs)]
    simp
  rw [splitKey, htext, hrest, hfront]
  simp

theorem splitKey_append {scope name : String} (hs : '/' ∉ scope.toList) (hn : '/' ∉ name.toList) :
    splitKey (scope ++ "/" ++ name) = .ok (scope, name) := by
  rw [splitKey_at hs, if_neg hn]

def slashes (text : String) : Nat := text.toList.count '/'

theorem slashes_eq_zero_iff {text : String} : slashes text = 0 ↔ '/' ∉ text.toList :=
  List.count_eq_zero

theorem slashes_join (scope name : String) :
    slashes (scope ++ "/" ++ name) = slashes scope + slashes name + 1 := by
  simp only [slashes, String.toList_append, List.count_append]
  have hslash : "/".toList.count '/' = 1 := rfl
  omega

theorem exists_first_slash {text : String} (h : '/' ∈ text.toList) :
    ∃ scope name, text = scope ++ "/" ++ name ∧ '/' ∉ scope.toList := by
  obtain ⟨front, back, he, hfront⟩ := List.eq_append_cons_of_mem h
  refine ⟨String.ofList front, String.ofList back, ?_, by simpa using hfront⟩
  apply String.toList_inj.1
  simp [he]

/-- What splitting comes to, by the number of slashes. -/
theorem splitKey_cases (text : String) :
    (slashes text = 0 ∧ splitKey text = .ok ("", text)) ∨
    (∃ scope name, text = scope ++ "/" ++ name ∧ '/' ∉ scope.toList ∧ '/' ∉ name.toList ∧
      splitKey text = .ok (scope, name)) ∨
    (1 < slashes text ∧ splitKey text = .error (.unexpectedKey text)) := by
  by_cases hslash : '/' ∈ text.toList
  · obtain ⟨scope, name, rfl, hs⟩ := exists_first_slash hslash
    by_cases hn : '/' ∈ name.toList
    · right
      right
      have hname : slashes name ≠ 0 := mt slashes_eq_zero_iff.1 (not_not_intro hn)
      rw [slashes_join, splitKey_at hs, if_pos hn]
      exact ⟨by omega, rfl⟩
    · right
      left
      exact ⟨scope, name, rfl, hs, hn, splitKey_append hs hn⟩
  · left
    exact ⟨slashes_eq_zero_iff.2 hslash, splitKey_of_unscoped hslash⟩

namespace ObjectKey

theorem tenant_eq_ok_iff {key : ObjectKey} {t : String} :
    key.tenant = .ok t ↔ ('/' ∉ key.scope.toList ∧ '/' ∉ key.name.toList) ∧ key.scope = t := by
  rw [← not_or, tenant]
  split
  · next h => simp [h]
  · next h => simp [h]

/-- A namespace that is empty leaves no trace in the text, and is what is read from none. -/
theorem splitKey_text {key : ObjectKey} {t : String} (h : key.tenant = .ok t) :
    splitKey key.text = .ok (key.scope, key.name) := by
  obtain ⟨⟨hs, hn⟩, -⟩ := tenant_eq_ok_iff.1 h
  rw [text]
  split
  · next he => rw [splitKey_of_unscoped hn, he]
  · exact splitKey_append hs hn

theorem tenantOf_text {key : ObjectKey} {t : String} (h : key.tenant = .ok t) :
    tenantOf key.text = .ok t := by
  rw [tenantOf, splitKey_text h, ← (tenant_eq_ok_iff.1 h).2]
  rfl

theorem text_injective {key key' : ObjectKey} {t t' : String} (h : key.tenant = .ok t)
    (h' : key'.tenant = .ok t') (he : key.text = key'.text) : key = key' := by
  have hsplit := splitKey_text h
  rw [he, splitKey_text h'] at hsplit
  cases key
  cases key'
  simpa [eq_comm] using hsplit

theorem tenant_of_slash {key : ObjectKey} (h : '/' ∈ key.scope.toList ∨ '/' ∈ key.name.toList) :
    key.tenant = .error (.unexpectedKey key.text) := if_pos h

/-- What can be read from a text: its parts on both sides of its only slash, or all of it. -/
theorem of_parse {text : String} {key : ObjectKey} (h : parse text = .ok key) :
    ('/' ∉ key.scope.toList ∧ '/' ∉ key.name.toList) ∧
      splitKey text = .ok (key.scope, key.name) ∧
      (text = key.scope ++ "/" ++ key.name ∨ key.scope = "" ∧ text = key.name) := by
  rw [parse] at h
  rcases splitKey_cases text with ⟨hzero, hsplit⟩ | ⟨scope, name, he, hs, hn, hsplit⟩ | ⟨-, hsplit⟩
  · rw [hsplit] at h
    cases h
    exact ⟨⟨List.not_mem_nil, slashes_eq_zero_iff.1 hzero⟩, hsplit, .inr ⟨rfl, rfl⟩⟩
  · rw [hsplit] at h
    cases h
    exact ⟨⟨hs, hn⟩, hsplit, .inl he⟩
  · rw [hsplit] at h
    cases h

theorem tenant_of_parse {text : String} {key : ObjectKey} (h : parse text = .ok key) :
    key.tenant = .ok key.scope ∧ tenantOf text = .ok key.scope := by
  obtain ⟨hslashless, hsplit, -⟩ := of_parse h
  refine ⟨tenant_eq_ok_iff.2 ⟨hslashless, rfl⟩, ?_⟩
  rw [tenantOf, hsplit]
  rfl

theorem exists_parse_iff (text : String) : (∃ key, parse text = .ok key) ↔ slashes text ≤ 1 := by
  constructor
  · rintro ⟨key, h⟩
    obtain ⟨⟨hs, hn⟩, -, rfl | ⟨-, rfl⟩⟩ := of_parse h
    · rw [slashes_join, slashes_eq_zero_iff.2 hs, slashes_eq_zero_iff.2 hn]
    · have hzero := slashes_eq_zero_iff.2 hn
      omega
  · intro hle
    rcases splitKey_cases text with ⟨-, hsplit⟩ | ⟨scope, name, -, -, -, hsplit⟩ | ⟨hlt, -⟩
    · exact ⟨⟨"", text⟩, by rw [parse, hsplit]; rfl⟩
    · exact ⟨⟨scope, name⟩, by rw [parse, hsplit]; rfl⟩
    · exact absurd hle (Nat.not_le_of_lt hlt)

theorem parse_text {key : ObjectKey} {t : String} (h : key.tenant = .ok t) :
    parse key.text = .ok key := by
  rw [parse, splitKey_text h]
  rfl

theorem head?_ne_slash {text : String} (h : '/' ∉ text.toList) :
    text.toList.head? ≠ some '/' := fun hh => h (List.mem_of_mem_head? hh)

/-- The text of what is read is the text that was read, but for a slash in front. -/
theorem text_of_parse {text : String} {key : ObjectKey} (h : parse text = .ok key) :
    key.text.toList =
      if text.toList.head? = some '/' then text.toList.tail else text.toList := by
  obtain ⟨⟨hs, hn⟩, -, rfl | ⟨hscope, rfl⟩⟩ := of_parse h
  · have hjoin : (key.scope ++ "/" ++ key.name).toList =
        key.scope.toList ++ '/' :: key.name.toList := by simp
    by_cases hscope : key.scope = ""
    · rw [ObjectKey.text, if_pos hscope, hjoin, hscope]
      rfl
    · have hhead : (key.scope.toList ++ '/' :: key.name.toList).head? ≠ some '/' := by
        obtain ⟨c, rest, hc⟩ := List.exists_cons_of_ne_nil (mt String.toList_eq_nil_iff.1 hscope)
        have hfirst := head?_ne_slash hs
        rw [hc] at hfirst ⊢
        exact hfirst
      rw [ObjectKey.text, if_neg hscope, hjoin, if_neg hhead]
  · rw [ObjectKey.text, if_pos hscope, if_neg (head?_ne_slash hn)]

/-- Keys are read from texts and written as texts without loss. A text can be read if it has at most
one slash; what is read has a tenant, the one that the text has, and is written as the text was but
for a slash in front. A key is read back from its text if it has a tenant, and only then: else the
text is refused, or read as another key. -/
theorem read_and_written :
    (∀ text, ((∃ key, parse text = .ok key) ↔ slashes text ≤ 1) ∧
      ∀ key, parse text = .ok key →
        (∃ t, key.tenant = .ok t ∧ tenantOf text = .ok t) ∧
        key.text.toList =
          if text.toList.head? = some '/' then text.toList.tail else text.toList) ∧
    ∀ key : ObjectKey, (parse key.text = .ok key ↔ ∃ t, key.tenant = .ok t) ∧
      ((∃ e, key.tenant = .error e) →
        (∃ e, parse key.text = .error e) ∨ ∃ other, other ≠ key ∧ parse key.text = .ok other) := by
  have hback (key : ObjectKey) : parse key.text = .ok key ↔ ∃ t, key.tenant = .ok t :=
    ⟨fun h => ⟨key.scope, (tenant_of_parse h).1⟩, fun ⟨t, h⟩ => parse_text h⟩
  constructor
  · intro text
    refine ⟨exists_parse_iff text, fun key h => ⟨⟨key.scope, tenant_of_parse h⟩, text_of_parse h⟩⟩
  · intro key
    refine ⟨hback key, ?_⟩
    rintro ⟨e, he⟩
    cases hp : parse key.text with
    | error e => exact .inl ⟨e, rfl⟩
    | ok other =>
      right
      refine ⟨other, ?_, rfl⟩
      rintro rfl
      obtain ⟨t, ht⟩ := (hback other).1 hp
      rw [ht] at he
      cases he

end ObjectKey

end TenantQueue
