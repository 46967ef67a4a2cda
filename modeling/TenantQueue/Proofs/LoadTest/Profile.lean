import TenantQueue.Proofs.Key
import TenantQueue.Proofs.LoadTest.Outcome
import TenantQueue.Proofs.Queue.Isolation
import TenantQueue.Proofs.Text.ByteOrder

/-! What makes a profile. Times are merged before they are checked, so that neither the profile nor
the error depends on the order of the list but for the last time of each key. In what unit the times
are given plays no part. -/
namespace TenantQueue.LoadTest.Profile
open Queue Text

theorem keyError?_eq (key : String) :
    keyError? key = if 1 < slashes key then some (.unexpectedKey key) else none := by
  unfold keyError?
  rcases splitKey_cases key with ⟨hzero, hsplit⟩ | ⟨scope, name, rfl, hs, hn, hsplit⟩ | ⟨hlt, hsplit⟩
  · simp [hsplit, hzero]
  · simp [hsplit, slashes_join, slashes_eq_zero_iff.2 hs, slashes_eq_zero_iff.2 hn]
  · simp [hsplit, hlt]

theorem keyError?_eq_none_iff {key : String} : keyError? key = none ↔ slashes key ≤ 1 := by
  rw [keyError?_eq]
  split <;> simp_all

variable {items : List (String × Nat)}

theorem ofList_of_found {e : Error} (hne : items ≠ [])
    (h : (Keyed.ofList items).keys.findSome? keyError? = some e) : ofList items = .error e := by
  simp [ofList, ofKeyed, Keyed.isEmpty_ofList, hne, h]

theorem ofList_of_none (hne : items ≠ [])
    (h : (Keyed.ofList items).keys.findSome? keyError? = none) :
    ofList items = .ok ⟨Keyed.ofList items⟩ := by
  simp [ofList, ofKeyed, Keyed.isEmpty_ofList, hne, h]

/-- The keys are checked in their order, so that the first one refused is the least. -/
theorem exists_least_refused {keys : List String} (hasc : keys.Pairwise (· < ·))
    (h : ∃ key ∈ keys, 1 < slashes key) :
    ∃ key ∈ keys, 1 < slashes key ∧ (∀ other ∈ keys, 1 < slashes other → key ≤ other) ∧
      keys.findSome? keyError? = some (.unexpectedKey key) := by
  induction keys with
  | nil => simp at h
  | cons key rest ih =>
    obtain ⟨hfirst, hrest⟩ := List.pairwise_cons.1 hasc
    by_cases hlt : 1 < slashes key
    · refine ⟨key, List.mem_cons_self, hlt, fun other ho _ => ?_, ?_⟩
      · exact (List.mem_cons.1 ho).elim (fun e => e.ge) fun ho => (hfirst other ho).le
      · rw [List.findSome?_cons, keyError?_eq, if_pos hlt]
    · have hbad : ∃ bad ∈ rest, 1 < slashes bad := by simpa [hlt] using h
      obtain ⟨bad, hm, hslashes, hleast, hfound⟩ := ih hrest hbad
      refine ⟨bad, List.mem_cons_of_mem _ hm, hslashes, fun other ho hother => ?_, ?_⟩
      · cases List.mem_cons.1 ho with
        | inl e => exact absurd (e ▸ hother) hlt
        | inr ho => exact hleast other ho hother
      · rw [List.findSome?_cons, keyError?_eq, if_neg hlt, hfound]

theorem ofList_of_many_slashes (h : ∃ key ∈ items.map Prod.fst, 1 < slashes key) :
    ∃ key ∈ items.map Prod.fst, 1 < slashes key ∧
      (∀ other ∈ items.map Prod.fst, 1 < slashes other → key ≤ other) ∧
      ofList items = .error (.unexpectedKey key) := by
  have hne : items ≠ [] := by
    rintro rfl
    simp at h
  simp only [← Keyed.mem_keys_ofList] at h ⊢
  obtain ⟨key, hm, hlt, hleast, hfound⟩ := exists_least_refused (Keyed.ascending_ofList items) h
  exact ⟨key, hm, hlt, hleast, ofList_of_found hne hfound⟩

theorem ofList_of_few_slashes (hne : items ≠ []) (h : ∀ key ∈ items.map Prod.fst, slashes key ≤ 1) :
    ofList items = .ok ⟨Keyed.ofList items⟩ := by
  refine ofList_of_none hne (List.findSome?_eq_none_iff.2 fun key hk => ?_)
  exact keyError?_eq_none_iff.2 (h key ((Keyed.mem_keys_ofList items key).1 hk))

/-- No other list has this error. -/
theorem ofList_noItems_iff :
    ofList items = .error (.profile "profile has no items") ↔ items = [] := by
  refine ⟨fun h => ?_, ?_⟩
  · by_contra hne
    by_cases hmany : ∃ key ∈ items.map Prod.fst, 1 < slashes key
    · obtain ⟨key, -, -, -, he⟩ := ofList_of_many_slashes hmany
      rw [he] at h
      cases h
    · rw [ofList_of_few_slashes hne fun key hk => not_lt.1 fun hlt => hmany ⟨key, hk, hlt⟩] at h
      cases h
  · rintro rfl
    rfl

theorem items_of_ofList {p : Profile} (h : ofList items = .ok p) : p.items = Keyed.ofList items := by
  unfold ofList ofKeyed at h
  split at h
  · cases h
  · split at h
    · cases h
    · cases h
      rfl

/-- The ways to come by a profile, whatever the parser of its text finds. -/
inductive Made (parse : String → Option (List (String × Nat))) : Profile → Prop
  | ofList {items : List (String × Nat)} {p : Profile} (h : ofList items = .ok p) : Made parse p
  | ofText {text : String} {path : Option String} {p : Profile}
    (h : ofText parse text path = .ok p) : Made parse p
  | ofContent {content : FileContent} {path : Option String} {p : Profile}
    (h : ofContent parse content path = .ok p) : Made parse p
  | standard : Made parse standard

variable {parse : String → Option (List (String × Nat))}

theorem exists_of_ofText {text : String} {path : Option String} {p : Profile}
    (h : Profile.ofText parse text path = .ok p) : ∃ items, Profile.ofList items = .ok p := by
  unfold Profile.ofText at h
  split at h
  · cases h
  · next items _ => exact ⟨items, h⟩

theorem Made.exists_ofList {p : Profile} (h : Made parse p) :
    ∃ items, Profile.ofList items = .ok p := by
  cases h with
  | ofList h => exact ⟨_, h⟩
  | ofText h => exact exists_of_ofText h
  | ofContent h =>
    next content path =>
    cases htext : content.text with
    | error e => simp [Profile.ofContent, htext, bind, Except.bind] at h
    | ok text =>
      exact exists_of_ofText (by simpa [Profile.ofContent, htext, bind, Except.bind] using h)
  | standard => exact ⟨Profile.standard.items.entries, by decide⟩

/-- A fair queue takes in every item of a profile, at any time. -/
theorem Made.accepted {p : Profile} (h : Made parse p) {key : String} (hk : key ∈ p.keys)
    (calls : List (Call String)) (name : Option String) :
    let q := WorkQueue.run calls (.empty .fair name)
    (q.add key).2.counts = [.adds] ∧ (q.add key).1.IsDirty key := by
  intro q
  obtain ⟨items, hitems⟩ := h.exists_ofList
  obtain ⟨t, ht⟩ := (valid_of_ofList hitems).tenants key hk
  have hhome : q.home key = some t := by
    rw [WorkQueue.home_run, WorkQueue.home, WorkQueue.flavour_empty]
    exact congrArg Except.toOption ht
  have hs : q.Sound := (WorkQueue.sound_empty .fair name).run calls
  exact ⟨WorkQueue.counts_add hhome, (hs.isDirty_add hhome key).2 (.inl rfl)⟩

/-- What comes of a list of times. Without entries it is refused, and for a key with more than one
slash, of which the error names the least in the order of the bytes. Any other list makes a profile:
its keys are those of the list, once each and in that order, and each takes the time of its last
entry. So two lists make the same profile if and only if the last entries agree. Whichever way a
profile was made, and whatever was parsed for it, it has an item, and a fair queue accepts every item
it has. -/
theorem merged_and_checked (items : List (String × Nat)) :
    (ofList items = .error (.profile "profile has no items") ↔ items = []) ∧
    ((∃ key ∈ items.map Prod.fst, 1 < slashes key) →
      ∃ key ∈ items.map Prod.fst, 1 < slashes key ∧
        (∀ other ∈ items.map Prod.fst, 1 < slashes other → bytes key ≤ bytes other) ∧
        ofList items = .error (.invalidKey key "unexpected key format")) ∧
    (items ≠ [] → (∀ key ∈ items.map Prod.fst, slashes key ≤ 1) →
      ∃ p, ofList items = .ok p ∧
        p.keys.Pairwise (bytes · < bytes ·) ∧ (∀ key, key ∈ p.keys ↔ key ∈ items.map Prod.fst) ∧
        ∀ key, p.duration key = (items.reverse.lookup key).getD 0) ∧
    (∀ others p p', ofList items = .ok p → ofList others = .ok p' →
      (p = p' ↔ ∀ key, items.reverse.lookup key = others.reverse.lookup key)) ∧
    ∀ parse p, Made parse p → p.keys ≠ [] ∧
      ∀ key ∈ p.keys, ∀ calls name,
        let q := WorkQueue.run calls (.empty .fair name)
        (q.add key).2.counts = [.adds] ∧ (q.add key).1.IsDirty key := by
  refine ⟨ofList_noItems_iff, fun h => ?_, fun hne h => ?_, fun others p p' hp hp' => ?_,
    fun parse p hp => ⟨?_, fun key hk => hp.accepted hk⟩⟩
  · obtain ⟨key, hk, hlt, hleast, he⟩ := ofList_of_many_slashes h
    refine ⟨key, hk, hlt, fun other ho hother => ?_, he⟩
    exact not_lt.2 (hleast other ho hother) ∘ bytes_lt_iff.1
  · have hp := ofList_of_few_slashes hne h
    refine ⟨_, hp, ?_, Keyed.mem_keys_ofList items, fun key => ?_⟩
    · exact (Keyed.ascending_ofList items).imp bytes_lt_of_lt
    · rw [duration, Keyed.get?_ofList]
  · have hitems := items_of_ofList hp
    have hitems' := items_of_ofList hp'
    constructor
    · rintro rfl key
      rw [← Keyed.get?_ofList, ← hitems, hitems', Keyed.get?_ofList]
    · intro hsame
      have hmerged : Keyed.ofList items = Keyed.ofList others := by
        refine (Keyed.ascending_ofList items).ext (Keyed.ascending_ofList others) fun key => ?_
        rw [Keyed.get?_ofList, Keyed.get?_ofList, hsame]
      cases p
      exact congrArg Profile.mk (hitems.trans (hmerged.trans hitems'.symm))
  · obtain ⟨list, hlist⟩ := hp.exists_ofList
    exact (valid_of_ofList hlist).nonempty

end TenantQueue.LoadTest.Profile
