import PolledConnection.Proofs.Tls.Store

/-! # What is in a store of TLS options

  A store can be read slot by slot (`read?`), listed (`contents`), and filled
  again from its list. A store that was filled by accepted options is `Sound`:
  there is a family exactly if there is a credential, and nothing is in it that
  its capabilities do not allow.

  In a sound store, storing a text changes what its own slot reads and nothing
  else, the list has every slot that is set exactly once, and storing what is
  listed gives the same store again.
-/

namespace PolledConnection.Tls

namespace Slot

theorem name_injective {a b : Slot} (h : a.name = b.name) : a = b := by
  have both : ofName? a.name = ofName? b.name := congrArg ofName? h
  rw [ofName?_name, ofName?_name] at both
  exact Option.some.inj both

/-- Only the name of a slot belongs to it. -/
theorem ofName?_eq_some_iff {name : String} {slot : Slot} :
    ofName? name = some slot ↔ name = slot.name := by
  constructor
  · intro known
    unfold ofName? at known
    -- The names are looked through in turn; each belongs to the slot that is found there.
    split at known
    · next h => rw [h, ← Option.some.inj known]; rfl
    split at known
    · next h => rw [h, ← Option.some.inj known]; rfl
    split at known
    · next h => rw [h, ← Option.some.inj known]; rfl
    split at known
    · next h => rw [h, ← Option.some.inj known]; rfl
    split at known
    · next h => rw [h, ← Option.some.inj known]; rfl
    · simp at known
  · rintro rfl
    exact ofName?_name slot

/-- What is among the capabilities is among more of them. -/
theorem isIn_of_contains {slot : Slot} {more caps : Capabilities}
    (h : more.contains caps = true) (has : slot.isIn caps = true) : slot.isIn more = true := by
  have same : more.union caps = more := by simpa [Capabilities.contains] using h
  rw [← same]
  cases slot with
  | trustedCerts =>
    unfold isIn at has ⊢
    simp [Capabilities.union, has]
  | certificate f | key f =>
    cases f with
    | rsa | ecc =>
      unfold isIn Family.isIn at has ⊢
      simp [Capabilities.union, has]

end Slot

/-- An entry as an option. -/
def optionOf (e : Entry) : String × Setting := (e.1.name, .text e.2)

namespace Options

variable {o p : Options} {slot other : Slot} {name text : String} {value : Setting}

/-! ### Reading and listing -/

/-- The text in a slot. The slots of a family that is not in use are empty. -/
def read? (o : Options) : Slot → Option String
  | .trustedCerts => o.trustedCerts
  | .certificate f => if o.family = some f then o.certificate else none
  | .key f => if o.family = some f then o.key else none

/-- The slots that are set, with their texts. -/
def contents (o : Options) : List Entry :=
  (o.trustedCerts.toList.map fun t => (.trustedCerts, t)) ++
    match o.family with
    | none => []
    | some f =>
      (o.certificate.toList.map fun c => (.certificate f, c)) ++
        o.key.toList.map fun k => (.key f, k)

/-- The options that are retrieved are the contents, by name. -/
theorem retrieve_entries (o : Options) : o.retrieve.entries = o.contents.map optionOf := by
  unfold retrieve contents
  cases o.family with
  | none => simp [optionOf, Slot.name, Function.comp_def]
  | some f => simp [optionOf, Slot.name, Function.comp_def]

theorem mem_contents : (slot, text) ∈ o.contents ↔ o.read? slot = some text := by
  unfold contents
  cases hf : o.family with
  | none =>
    cases slot with
    | trustedCerts => simp [read?, eq_comm]
    | certificate f | key f => simp [read?, hf]
  | some g =>
    cases slot with
    | trustedCerts => simp [read?, eq_comm]
    | certificate f | key f =>
      by_cases same : g = f
      · simp [read?, hf, same, eq_comm]
      · simp [read?, hf, same]

/-- Every slot is listed once. -/
theorem nodup_contents (o : Options) : (o.contents.map Prod.fst).Nodup := by
  unfold contents
  cases o.trustedCerts with
  | none | some t =>
    cases o.family with
    | none => simp
    | some f =>
      cases o.certificate with
      | none | some c =>
        cases o.key with
        | none | some k => simp

/-- The credentials that are listed are of the family. -/
theorem oneFamily_contents (o : Options) : OneFamily o.contents := by
  have own {g : Family} (hg : g ∈ families o.contents) : o.family = some g := by
    obtain ⟨⟨slot, text⟩, listed, family⟩ := List.mem_filterMap.mp hg
    have set := mem_contents.mp listed
    cases slot with
    | trustedCerts => simp [Slot.family?] at family
    | certificate f | key f =>
      obtain rfl : f = g := by simpa [Slot.family?] using family
      by_cases own : o.family = some f
      · exact own
      · simp [read?, own] at set
  intro f hf g hg
  exact Option.some.inj ((own hf).symm.trans (own hg))

/-! ### Sound stores -/

/-- A store as accepted options leave it. -/
structure Sound (o : Options) : Prop where
  /-- There is a family exactly if there is a certificate or a key. -/
  family : o.family.isSome = (o.certificate.isSome || o.key.isSome)
  /-- What is set is among the capabilities. -/
  supported : ∀ slot text, o.read? slot = some text → slot.isIn o.supported = true

theorem sound_new (caps : Capabilities) : Sound (new caps) where
  family := rfl
  supported slot text h := by
    cases slot with
    | trustedCerts | certificate | key => simp [new, read?] at h

@[simp] theorem store_supported (o : Options) (slot : Slot) (text : String) :
    (o.store slot text).supported = o.supported := by
  cases slot with
  | trustedCerts | certificate | key => rfl

/-- A slot without conflict is of the family that is set, if one is. -/
theorem family_of_conflict? {f : Family} (free : o.conflict? slot = none)
    (hs : slot.family? = some f) : o.family = none ∨ o.family = some f := by
  unfold conflict? at free
  rw [hs] at free
  cases hf : o.family with
  | none => exact .inl rfl
  | some g =>
    by_cases same : g = f
    · exact .inr (congrArg some same)
    · simp [hf, same] at free

/-- **Step**: a text that is stored is read in its slot, and all other slots read what they did. -/
theorem read?_store (sound : o.Sound) (free : o.conflict? slot = none) (other : Slot) :
    (o.store slot text).read? other = if slot = other then some text else o.read? other := by
  have family := sound.family
  cases slot with
  | trustedCerts =>
    cases other with
    | trustedCerts => simp [store, read?]
    | certificate g | key g => rfl
  | certificate f =>
    rcases family_of_conflict? free rfl with empty | same
    · -- The first credential: whatever could be read of a family was nothing.
      obtain ⟨-, key⟩ : o.certificate = none ∧ o.key = none := by simpa [empty] using family
      cases other with
      | trustedCerts | certificate | key => simp [store, read?, empty, key]
    · cases other with
      | trustedCerts => simp [store, read?]
      | certificate g | key g =>
        by_cases h : f = g
        · simp [store, read?, same, h]
        · simp [store, read?, same, h]
  | key f =>
    rcases family_of_conflict? free rfl with empty | same
    · obtain ⟨certificate, -⟩ : o.certificate = none ∧ o.key = none := by
        simpa [empty] using family
      cases other with
      | trustedCerts | certificate | key => simp [store, read?, empty, certificate]
    · cases other with
      | trustedCerts => simp [store, read?]
      | certificate g | key g =>
        by_cases h : f = g
        · simp [store, read?, same, h]
        · simp [store, read?, same, h]

/-- Storing what is supported, without conflict, keeps a store sound. -/
theorem Sound.store (sound : o.Sound) (has : slot.isIn o.supported = true)
    (free : o.conflict? slot = none) (text : String) : (o.store slot text).Sound where
  family := by
    cases slot with
    | trustedCerts => exact sound.family
    | certificate f | key f => simp [Options.store]
  supported other read h := by
    rw [store_supported]
    rw [read?_store sound free] at h
    by_cases same : slot = other
    · rw [← same]
      exact has
    · rw [if_neg same] at h
      exact sound.supported other read h

/-- Storing what is there changes nothing. -/
theorem store_self (h : o.read? slot = some text) : o.store slot text = o := by
  obtain ⟨supported, trustedCerts, family, certificate, key⟩ := o
  cases slot with
  | trustedCerts =>
    unfold read? at h
    unfold store
    simp_all
  | certificate f | key f =>
    by_cases hf : family = some f
    · simp_all [read?, store]
    · simp [read?, hf] at h

theorem conflict?_self (h : o.read? slot = some text) : o.conflict? slot = none := by
  unfold conflict?
  cases slot with
  | trustedCerts => rfl
  | certificate f | key f =>
    by_cases hf : o.family = some f
    · simp [Slot.family?, hf]
    · simp [read?, hf] at h

/-! ### Setting by name -/

/-- What is accepted, and what it does. -/
theorem set_eq_accepted : o.set name value = (.ok .accepted, p) ↔
    ∃ slot text, name = slot.name ∧ value = .text text ∧ slot.isIn o.supported = true ∧
      o.conflict? slot = none ∧ p = o.store slot text := by
  constructor
  · intro h
    unfold set at h
    cases hs : Slot.ofName? name with
    | none => simp [hs] at h
    | some slot =>
      cases hi : slot.isIn o.supported with
      | false => simp [hs, hi] at h
      | true =>
        cases hc : o.conflict? slot with
        | some current => simp [hs, hi, hc] at h
        | none =>
          cases value with
          | truth | whole => simp [hs, hi, hc, Setting.text?] at h
          | text t =>
            refine ⟨slot, t, Slot.ofName?_eq_some_iff.mp hs, rfl, hi, hc, ?_⟩
            simpa [hs, hi, hc, Setting.text?, eq_comm] using h
  · rintro ⟨slot, text, rfl, rfl, has, free, rfl⟩
    simp [set, has, free, Setting.text?]

/-! ### Filling a store again -/

/-- What was listed, remembered in a store with other capabilities, is the same store but for these. -/
theorem remembered_contents (sound : o.Sound) (caps : Capabilities) :
    remembered caps o.contents = { o with supported := caps } := by
  have family := sound.family
  obtain ⟨supported, trustedCerts, kind, certificate, key⟩ := o
  cases kind with
  | none =>
    obtain ⟨rfl, rfl⟩ : certificate = none ∧ key = none := by simpa using family
    cases trustedCerts with
    | none | some t => rfl
  | some f =>
    -- A family without a credential is excluded; the other cases are computed.
    cases trustedCerts with
    | none | some t =>
      cases certificate with
      | none =>
        cases key with
        | none => simp at family
        | some k => rfl
      | some c =>
        cases key with
        | none | some k => rfl

/-- Among entries of one family, none is in conflict with those before it. -/
theorem conflict?_before {caps : Capabilities} {past later : List Entry}
    (one : OneFamily (past ++ (slot, text) :: later)) :
    (remembered caps past).conflict? slot = none ∧ Unopposed past slot := by
  have free : Unopposed past slot := by
    intro wanted hw f hf
    refine one f ?_ wanted ?_
    · simp [hf]
    · simp [families, hw]
  refine ⟨?_, free⟩
  have before : OneFamily past := fun f hf g hg => one f (by simp [hf]) g (by simp [hg])
  have conflicts := conflict?_remembered caps slot before
  cases hc : (remembered caps past).conflict? slot with
  | none => rfl
  | some current =>
    rw [hc] at conflicts
    obtain ⟨present, wanted, family, different⟩ := conflicts
    exact absurd (free wanted family current present) different

end Options

end PolledConnection.Tls
