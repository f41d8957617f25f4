import PolledConnection.Proofs.Tls.Layer

/-! # What a store of TLS options remembers

  A store may be offered anything in any order, and refuse much of it. What it
  holds in the end depends only on what it has accepted: of the trusted
  certificates, the certificate and the key the last one each, and the family
  of the first credential (`remembered`). What it answers depends on the same
  (`Due`).

  So the history of a store is a list of entries, and each statement about all
  histories is an induction that adds one call at the end.
-/

namespace PolledConnection.Tls

/-! ### Entries -/

/-- An option that was accepted: its slot, and the text that was stored. -/
abbrev Entry := Slot × String

/-- The entry that an option makes if it is accepted. -/
def entryOf? (option : String × Setting) : Option Entry := do
  let slot ← Slot.ofName? option.1
  let text ← option.2.text?
  return (slot, text)

/-- The families of the credentials among entries. -/
def families (entries : List Entry) : List Family := entries.filterMap fun e => e.1.family?

/-- Credentials of one family only. -/
def OneFamily (entries : List Entry) : Prop := ∀ f ∈ families entries, ∀ g ∈ families entries, f = g

/-- Among entries, no credential is of another family than a slot. -/
def Unopposed (entries : List Entry) (slot : Slot) : Prop :=
  ∀ wanted, slot.family? = some wanted → ∀ f ∈ families entries, f = wanted

/-- The texts of the entries of a kind. -/
def texts (kind : Slot → Bool) (entries : List Entry) : List String :=
  (entries.filter fun e => kind e.1).map Prod.snd

@[simp] theorem families_append (entries more : List Entry) :
    families (entries ++ more) = families entries ++ families more :=
  List.filterMap_append

@[simp] theorem texts_append (kind : Slot → Bool) (entries more : List Entry) :
    texts kind (entries ++ more) = texts kind entries ++ texts kind more := by
  simp [texts]

theorem texts_single (kind : Slot → Bool) (slot : Slot) (text : String) :
    texts kind [(slot, text)] = if kind slot then [text] else [] := by
  by_cases h : kind slot = true
  · simp [texts, h]
  · simp [texts, h]

/-- A text of a kind is there if an entry of that kind is. -/
theorem isSome_getLast?_texts (kind : Slot → Bool) (entries : List Entry) :
    (texts kind entries).getLast?.isSome = entries.any fun e => kind e.1 := by
  induction entries with
  | nil => rfl
  | cons e entries ih =>
    by_cases h : kind e.1 = true
    · simp [texts, h]
    · rw [List.any_cons, ← ih]
      simp [texts, h]

/-- A credential that nothing opposes leaves the entries with one family. -/
theorem OneFamily.append {past : List Entry} {slot : Slot} (one : OneFamily past)
    (free : Unopposed past slot) (text : String) : OneFamily (past ++ [(slot, text)]) := by
  have last {f : Family} (hf : f ∈ families [(slot, text)]) : slot.family? = some f := by
    simpa [families] using hf
  intro f hf g hg
  rw [families_append, List.mem_append] at hf hg
  rcases hf with hf | hf
  · rcases hg with hg | hg
    · exact one f hf g hg
    · exact free g (last hg) f hf
  · rcases hg with hg | hg
    · exact (free f (last hf) g hg).symm
    · exact Option.some.inj ((last hf).symm.trans (last hg))

/-- Whether a slot is that of the trusted certificates. -/
def Slot.isTrust : Slot → Bool
  | .trustedCerts => true
  | _ => false

namespace Options

/-- The store that remembers just some entries. -/
def remembered (caps : Capabilities) (entries : List Entry) : Options where
  supported := caps
  trustedCerts := (texts Slot.isTrust entries).getLast?
  family := (families entries).head?
  certificate := (texts Slot.isCertificate entries).getLast?
  key := (texts Slot.isKey entries).getLast?

@[simp] theorem remembered_supported (caps : Capabilities) (entries : List Entry) :
    (remembered caps entries).supported = caps := rfl

/-! ### Calls -/

/-- The answer to a call of `set`. -/
def answer (o : Options) (name : String) (value : Setting) : Except Fault Status :=
  (o.set name value).1

/-- The store behind a call of `set`. -/
def after (o : Options) (option : String × Setting) : Options :=
  (o.set option.1 option.2).2

/-- The store behind calls. -/
def behind (o : Options) (calls : List (String × Setting)) : Options := calls.foldl after o

/-- The entries that calls have made. -/
def entered (o : Options) : List (String × Setting) → List Entry
  | [] => []
  | (name, value) :: rest =>
    (if o.answer name value = .ok .accepted then (entryOf? (name, value)).toList else []) ++
      entered (o.after (name, value)) rest

/-- The answer that is due to a call behind some entries. The reasons to refuse it come in order:
    each holds only where those before it do not. -/
inductive Due (caps : Capabilities) (past : List Entry) (name : String) (value : Setting) :
    Except Fault Status → Prop where
  /-- The name is not that of a TLS option. -/
  | notHandled (unknown : Slot.ofName? name = none) : Due caps past name value (.ok .notHandled)
  /-- The capability is missing. -/
  | unsupported {slot : Slot} (known : Slot.ofName? name = some slot)
      (lacks : slot.isIn caps = false) :
      Due caps past name value (.error (.unsupportedOption name))
  /-- A credential of the other family was accepted. -/
  | conflict {slot : Slot} {wanted current : Family} (known : Slot.ofName? name = some slot)
      (has : slot.isIn caps = true) (family : slot.family? = some wanted)
      (present : current ∈ families past) (other : current ≠ wanted) :
      Due caps past name value (.error (.optionConflict
        s!"'{name}' conflicts with previously set {current.label} credentials"))
  /-- The value is not a text. -/
  | mistyped {slot : Slot} (known : Slot.ofName? name = some slot) (has : slot.isIn caps = true)
      (free : Unopposed past slot)
      (noText : ∀ text, value ≠ .text text) :
      Due caps past name value (.error (.invalidParameter s!"{name} expects a string value"))
  /-- There is nothing against it. -/
  | accepted {slot : Slot} {text : String} (known : Slot.ofName? name = some slot)
      (has : slot.isIn caps = true)
      (free : Unopposed past slot)
      (isText : value = .text text) : Due caps past name value (.ok .accepted)

/-! ### What a call does -/

section
variable {caps : Capabilities} {past : List Entry} {slot : Slot} {name : String} {value : Setting}

/-- A store that remembers credentials of one family excludes the other one, and nothing else. -/
theorem conflict?_remembered (caps : Capabilities) (slot : Slot) (one : OneFamily past) :
    match (remembered caps past).conflict? slot with
    | some current => current ∈ families past ∧ ∃ wanted, slot.family? = some wanted ∧ current ≠ wanted
    | none => Unopposed past slot := by
  unfold conflict? remembered Unopposed
  cases hf : slot.family? with
  | none => simp
  | some wanted =>
    cases hp : families past with
    | nil => simp
    | cons current rest =>
      have present : current ∈ families past := by simp [hp]
      by_cases same : current = wanted
      · have free : ∀ f ∈ families past, f = wanted := by
          intro f hf
          rw [← same]
          exact one f hf current present
        simpa [same, hp] using free
      · simp [same]

/-- The first family stays the first, and there is one behind a credential. -/
theorem head?_families_append (text : String)
    (free : Unopposed past slot) :
    (families (past ++ [(slot, text)])).head? = (slot.family? <|> (families past).head?) := by
  rw [families_append]
  cases hs : slot.family? with
  | none => simp [families, hs]
  | some wanted =>
    have last : families [(slot, text)] = [wanted] := by simp [families, hs]
    rw [last]
    cases hp : families past with
    | nil => rfl
    | cons f rest =>
      have same : f = wanted := free wanted hs f (by simp [hp])
      simp [same]

/-- A text that is stored in a free slot is remembered. -/
theorem store_remembered (text : String)
    (free : Unopposed past slot) :
    (remembered caps past).store slot text = remembered caps (past ++ [(slot, text)]) := by
  have family := head?_families_append text free
  unfold remembered
  rw [family, texts_append, texts_append, texts_append, texts_single, texts_single, texts_single]
  cases slot with
  | trustedCerts | certificate | key =>
    simp [store, Slot.isTrust, Slot.isCertificate, Slot.isKey, Slot.family?]

/-- **Step**: a call gets the answer that is due behind the entries so far. It leaves the store
    alone, or makes one more entry. -/
theorem call_remembered (caps : Capabilities) (one : OneFamily past) (name : String)
    (value : Setting) :
    let o := remembered caps past
    (∃ status, Due caps past name value status ∧ status ≠ .ok .accepted ∧
      o.answer name value = status ∧ o.after (name, value) = o) ∨
    (∃ entry, Due caps past name value (.ok .accepted) ∧ entryOf? (name, value) = some entry ∧
      OneFamily (past ++ [entry]) ∧ o.answer name value = .ok .accepted ∧
      o.after (name, value) = remembered caps (past ++ [entry])) := by
  unfold answer after set
  -- The cases are those of `set`, in its order.
  cases hs : Slot.ofName? name with
  | none => exact .inl ⟨_, .notHandled hs, by simp, rfl, rfl⟩
  | some slot =>
    have conflicts := conflict?_remembered caps slot one
    cases hi : slot.isIn caps with
    | false =>
      exact .inl ⟨_, .unsupported hs hi, by simp, by simp [hi], by simp [hi]⟩
    | true =>
      cases hc : (remembered caps past).conflict? slot with
      | some current =>
        rw [hc] at conflicts
        obtain ⟨present, wanted, family, other⟩ := conflicts
        exact .inl ⟨_, .conflict hs hi family present other, by simp, by simp [hi, hc],
          by simp [hi, hc]⟩
      | none =>
        rw [hc] at conflicts
        cases ht : value.text? with
        | none =>
          have noText (text : String) : value ≠ .text text := by
            rintro rfl
            simp [Setting.text?] at ht
          exact .inl ⟨_, .mistyped hs hi conflicts noText, by simp, by simp [hi, hc],
            by simp [hi, hc]⟩
        | some text =>
          have isText : value = .text text := by
            cases value with
            | truth | whole => simp [Setting.text?] at ht
            | text t => simpa [Setting.text?] using ht
          refine .inr ⟨(slot, text), .accepted hs hi conflicts isText, by simp [entryOf?, hs, ht], ?_,
            by simp [hi, hc], ?_⟩
          · exact one.append conflicts text
          · rw [← store_remembered text conflicts]
            simp [hi, hc]

end

/-! ### Histories -/

section
variable {caps : Capabilities} {past : List Entry} {calls more : List (String × Setting)}

/-- **Run**: calls leave a store that remembers the entries that they have made. -/
theorem behind_remembered (caps : Capabilities) (one : OneFamily past)
    (calls : List (String × Setting)) :
    let entries := past ++ (remembered caps past).entered calls
    (remembered caps past).behind calls = remembered caps entries ∧ OneFamily entries := by
  induction calls generalizing past with
  | nil => simpa [behind, entered] using one
  | cons call rest ih =>
    obtain ⟨name, value⟩ := call
    rcases call_remembered caps one name value with
      ⟨status, -, other, answer, after⟩ | ⟨entry, -, made, still, answer, after⟩
    · have rests := ih one
      simpa [behind, entered, answer, other, after] using rests
    · have rests := ih still
      simpa [behind, entered, answer, made, after] using rests

theorem behind_append (o : Options) (calls more : List (String × Setting)) :
    o.behind (calls ++ more) = (o.behind calls).behind more :=
  List.foldl_append

theorem new_eq_remembered (caps : Capabilities) : new caps = remembered caps [] := rfl

/-- A text is there if an entry is, and so is the family of an entry. -/
theorem isSome_family (entries : List Entry) :
    (families entries).head?.isSome =
      ((entries.any fun e => e.1.isCertificate) || entries.any fun e => e.1.isKey) := by
  induction entries with
  | nil => rfl
  | cons e entries ih =>
    obtain ⟨slot, text⟩ := e
    cases slot with
    | trustedCerts => simpa [families, Slot.family?, Slot.isCertificate, Slot.isKey] using ih
    | certificate f | key f => simp [families, Slot.family?, Slot.isCertificate, Slot.isKey]

/-- Only one answer is due. -/
theorem Due.unique {name : String} {value : Setting} {a b : Except Fault Status}
    (one : OneFamily past) (ha : Due caps past name value a) (hb : Due caps past name value b) :
    a = b := by
  cases ha with
  | notHandled unknown => cases hb <;> simp_all
  | unsupported known lacks => cases hb <;> simp_all
  | conflict known has family present other =>
    cases hb with
    | notHandled | unsupported => simp_all
    | conflict _ _ _ present' _ => rw [one _ present _ present']
    | mistyped known' _ free _ | accepted known' _ free _ =>
      obtain rfl := Option.some.inj (known.symm.trans known')
      exact absurd (free _ family _ present) other
  | mistyped known has free noText =>
    cases hb with
    | notHandled | unsupported | mistyped => simp_all
    | conflict known' _ family present other =>
      obtain rfl := Option.some.inj (known.symm.trans known')
      exact absurd (free _ family _ present) other
    | accepted _ _ _ isText => exact absurd isText (noText _)
  | accepted known has free isText =>
    cases hb with
    | notHandled | unsupported | accepted => simp_all
    | conflict known' _ family present other =>
      obtain rfl := Option.some.inj (known.symm.trans known')
      exact absurd (free _ family _ present) other
    | mistyped _ _ _ noText => exact absurd isText (noText _)

end

/-! ### In a transport -/

/-- The layer of a transport treats its options as calls of `set` do: it keeps what a call leaves
    behind, and refuses what is not accepted. All that it does besides is to report. -/
theorem run_setOption {σ : Type} (l : Layer σ) (name : String) (value : Setting) :
    let o := (Layer.setOption name value).run l
    o.state = { l with options := l.options.after (name, value) } ∧
      (o.answer = .ok () ↔ l.options.answer name value = .ok .accepted) ∧
      ∃ notes : List Note, o.events = notes.map .note := by
  rcases h : l.options.set name value with ⟨fault | status, options⟩
  · refine ⟨?_, ?_, (Layer.complaint name fault).toList, ?_⟩
    · simp [Layer.setOption, after, h]
    · simp [Layer.setOption, answer, h]
    · simp [Layer.setOption, h]
  · cases status with
    | notHandled | accepted =>
      exact ⟨by simp [Layer.setOption, after, h], by simp [Layer.setOption, answer, h], [],
        by simp [Layer.setOption, h]⟩

/-! ### The theorem -/

/-- What a store holds behind some calls, and what it does with the next one. -/
structure Chronicle (caps : Capabilities) (calls : List (String × Setting)) : Prop where
  /-- It holds the last text accepted of each kind, and the family of the first credential. -/
  store : (new caps).behind calls = remembered caps ((new caps).entered calls)
  /-- The next call gets the answer that is due behind the entries, and no other. -/
  answer : ∀ name value status, ((new caps).behind calls).answer name value = status ↔
    Due caps ((new caps).entered calls) name value status
  /-- If it is not accepted, the store stays as it is, as a whole. -/
  unchanged : ∀ name value, ((new caps).behind calls).answer name value ≠ .ok .accepted →
    (new caps).behind (calls ++ [(name, value)]) = (new caps).behind calls
  /-- If it is accepted, it is a text for a slot that is supported, and makes an entry. -/
  accepted : ∀ name value, ((new caps).behind calls).answer name value = .ok .accepted →
    ∃ slot text, Slot.ofName? name = some slot ∧ slot.isIn caps = true ∧ value = .text text ∧
      (new caps).entered (calls ++ [(name, value)]) = (new caps).entered calls ++ [(slot, text)]
  /-- The family is there as soon as a certificate or a key is, and never changes. -/
  family : ((new caps).behind calls).family.isSome =
    (((new caps).behind calls).certificate.isSome || ((new caps).behind calls).key.isSome)
  sticky : ∀ more f, ((new caps).behind calls).family = some f →
    ((new caps).behind (calls ++ more)).family = some f
  /-- Credentials of both families are never accepted. -/
  oneFamily : OneFamily ((new caps).entered calls)
  /-- It is consistent exactly if a certificate and a key were accepted, or neither. -/
  consistency : ((new caps).behind calls).checkConsistency = .ok () ↔
    ((new caps).entered calls).any (fun e => e.1.isCertificate) =
      ((new caps).entered calls).any fun e => e.1.isKey

theorem entered_append (o : Options) (calls more : List (String × Setting)) :
    o.entered (calls ++ more) = o.entered calls ++ (o.behind calls).entered more := by
  induction calls generalizing o with
  | nil => rfl
  | cons call rest ih => simp [entered, behind, ih]

/-- **The memory of a store.** With any capabilities, and behind any calls of `set`: what the store
    holds, what it answers to the next call, and what that call changes, is told by the entries that
    it has accepted. -/
theorem store_chronicle (caps : Capabilities) (calls : List (String × Setting)) :
    Chronicle caps calls := by
  have none : OneFamily [] := by simp [OneFamily, families]
  obtain ⟨store, one⟩ := behind_remembered caps none calls
  rw [List.nil_append, ← new_eq_remembered] at store one
  have due (name : String) (value : Setting) :
      Due caps ((new caps).entered calls) name value (((new caps).behind calls).answer name value) := by
    rw [store]
    rcases call_remembered caps one name value with
      ⟨status, due, -, answer, -⟩ | ⟨entry, due, -, -, answer, -⟩
    · rw [answer]
      exact due
    · rw [answer]
      exact due
  refine {
    store := store
    oneFamily := one
    answer := fun name value status => ⟨?_, (due name value).unique one⟩
    unchanged := fun name value other => ?_
    accepted := fun name value h => ?_
    family := ?_
    sticky := fun more f h => ?_
    consistency := ?_ }
  · rintro rfl
    exact due name value
  · rw [behind_append]
    rcases call_remembered caps one name value with
      ⟨status, -, -, -, after⟩ | ⟨entry, -, -, -, answer, -⟩
    · rw [← store] at after
      simpa [behind] using after
    · rw [← store] at answer
      exact absurd answer other
  · have accepted := due name value
    rw [h] at accepted
    cases accepted with
    | @accepted slot text known has free isText =>
      subst isText
      refine ⟨slot, text, known, has, rfl, ?_⟩
      rw [entered_append]
      simp [entered, h, entryOf?, known, Setting.text?]
  · rw [store]
    simp [remembered, isSome_family, isSome_getLast?_texts]
  · rw [behind_append, store]
    obtain ⟨later, -⟩ := behind_remembered caps one more
    rw [later]
    rw [store] at h
    obtain ⟨rest, first⟩ : ∃ rest, families ((new caps).entered calls) = f :: rest :=
      List.head?_eq_some_iff.mp h
    simp [remembered, first]
  · rw [checkConsistency_iff, store]
    simp [remembered, isSome_getLast?_texts]

/-- A key of the other family is refused, and a text that is no text too. -/
example :
    ((new ⟨true, true, true, false⟩).behind
        [("x509certificate", .text "c"), ("x509EccAliasKey", .text "k"),
          ("x509privatekey", .truth true)]) =
      ⟨⟨true, true, true, false⟩, Option.none, some .rsa, some "c", Option.none⟩ := by
  decide

end Options

end PolledConnection.Tls
