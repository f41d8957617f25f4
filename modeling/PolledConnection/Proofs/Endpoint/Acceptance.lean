import PolledConnection.Proofs.Endpoint.Decoding

/-! # Which texts stand for an endpoint

  `Endpoint.Stands` says, of a JSON value, for which endpoint it stands. A
  value in compact text is accepted exactly if it stands for an endpoint with
  a host name, and is read as that endpoint (`Endpoint.ofText_compact`). An
  endpoint itself is written as a value that stands for it, so writing and
  reading lose nothing (`Endpoint.ofText_json`).
-/

namespace PolledConnection

open Json (Number Value)

/-! ### Options -/

/-- For which option value a JSON value stands: a number must be whole and must fit. -/
inductive Setting.Stands : Value → Setting → Prop where
  | truth (b : Bool) : Stands (.truth b) (.truth b)
  | whole {n : Number} {i : Int64} (h : n.integer? = some i.toInt) : Stands (.number n) (.whole i)
  | text (s : String) : Stands (.text s) (.text s)

/-- For which options JSON values stand: each is a pair of a name and a value. -/
inductive Settings.Stands : List Value → List (String × Setting) → Prop where
  | nil : Stands [] []
  | cons {v : Value} {s : Setting} {vs : List Value} {es : List (String × Setting)} (name : String)
      (value : s.Stands v) (more : Stands vs es) :
      Stands (.list [.text name, v] :: vs) ((name, s) :: es)

theorem Setting.ofJson?_eq_some {v : Value} {s : Setting} :
    Setting.ofJson? v = some s ↔ s.Stands v := by
  constructor
  · intro h
    cases v with
    | truth b =>
      cases h
      exact .truth b
    | text t =>
      cases h
      exact .text t
    | number n =>
      simp only [Setting.ofJson?, Option.map_eq_some_iff, Number.integerIn?_eq_some] at h
      obtain ⟨i, ⟨integer, low, high⟩, rfl⟩ := h
      refine .whole ?_
      rw [Int64.toInt_ofInt_of_le low (Int.lt_of_le_of_lt high (by decide))]
      exact integer
    | null | list | record => cases h
  · intro h
    cases h with
    | truth b => rfl
    | text t => rfl
    | @whole n i integer =>
      simp only [Setting.ofJson?, Option.map_eq_some_iff, Number.integerIn?_eq_some]
      exact ⟨i.toInt, ⟨integer, i.minValue_le_toInt, i.toInt_le⟩, by rw [Int64.ofInt_toInt]⟩

theorem Settings.pair?_eq_some {v : Value} {name : String} {s : Setting} :
    Settings.pair? v = some (name, s) ↔
      ∃ value, v = .list [.text name, value] ∧ s.Stands value := by
  constructor
  · intro h
    unfold Settings.pair? at h
    split at h
    · next first value =>
      simp only [Option.bind_eq_bind, Option.bind_eq_some_iff, Option.pure_def, Option.some.injEq,
        Prod.mk.injEq, Value.text?_eq_some, Setting.ofJson?_eq_some] at h
      obtain ⟨n, rfl, t, stands, rfl, rfl⟩ := h
      exact ⟨value, rfl, stands⟩
    · cases h
  · rintro ⟨value, rfl, stands⟩
    simp [Settings.pair?, Value.text?, Setting.ofJson?_eq_some.mpr stands]

theorem Settings.mapM_pair?_eq_some {vs : List Value} {es : List (String × Setting)} :
    vs.mapM Settings.pair? = some es ↔ Settings.Stands vs es := by
  constructor
  · intro h
    induction vs generalizing es with
    | nil =>
      cases h
      exact .nil
    | cons v vs ih =>
      simp only [List.mapM_cons, Option.bind_eq_bind, Option.bind_eq_some_iff, Option.pure_def,
        Option.some.injEq] at h
      obtain ⟨⟨name, s⟩, first, more, others, rfl⟩ := h
      obtain ⟨value, rfl, stands⟩ := Settings.pair?_eq_some.mp first
      exact .cons name stands (ih others)
  · intro h
    induction h with
    | nil => rfl
    | cons name value more ih =>
      rw [List.mapM_cons, Settings.pair?_eq_some.mpr ⟨_, rfl, value⟩, ih]
      rfl

theorem Settings.ofJson?_eq_some {v : Value} {s : Settings} :
    Settings.ofJson? v = some s ↔ ∃ items, v = .list items ∧ Settings.Stands items s.entries := by
  constructor
  · intro h
    cases v with
    | list items =>
      simp only [Settings.ofJson?, Option.map_eq_some_iff] at h
      obtain ⟨es, entries, rfl⟩ := h
      exact ⟨items, rfl, Settings.mapM_pair?_eq_some.mp entries⟩
    | null | truth | number | text | record => cases h
  · rintro ⟨items, rfl, stands⟩
    rw [Settings.ofJson?, Settings.mapM_pair?_eq_some.mpr stands]
    rfl

namespace Endpoint

/-! ### Parts -/

theorem port?_eq_some {v : Value} {p : UInt16} :
    port? v = some p ↔ ∃ n : Number, v = .number n ∧ n.integer? = some (p.toNat : Int) := by
  constructor
  · intro h
    cases v with
    | number n =>
      simp only [port?, Value.integerIn?, Option.map_eq_some_iff, Number.integerIn?_eq_some] at h
      obtain ⟨i, ⟨integer, low, high⟩, rfl⟩ := h
      refine ⟨n, rfl, ?_⟩
      rw [integer, UInt16.toNat_ofNat_of_lt' (by simp [UInt16.size]; omega)]
      congr 1
      omega
    | null | truth | text | list | record => cases h
  · rintro ⟨n, rfl, integer⟩
    have small := p.toNat_lt
    simp only [port?, Value.integerIn?, Option.map_eq_some_iff, Number.integerIn?_eq_some]
    exact ⟨p.toNat, ⟨integer, by omega, by omega⟩, by simp⟩

/-- The values of the members of a name, in order. -/
def named (name : String) (members : List (String × Value)) : List Value :=
  members.filterMap fun m => if m.1 = name then some m.2 else none

theorem named_cons (name : String) (m : String × Value) (ms : List (String × Value)) :
    named name (m :: ms) = if m.1 = name then m.2 :: named name ms else named name ms := by
  by_cases same : m.1 = name
  · simp [named, same]
  · simp [named, same]

/-- What values stand for the parts of an endpoint: one text for the host name, one whole number for
    the port, and a list for the options unless there are none. -/
structure Parts (hostname port options : List Value) (e : Endpoint) : Prop where
  hostname : hostname = [.text e.hostname]
  port : ∃ n : Number, port = [.number n] ∧ n.integer? = some (e.port.toNat : Int)
  options : (options = [] ∧ e.options = .empty) ∨
    ∃ items, options = [.list items] ∧ Settings.Stands items e.options.entries

/-- For which endpoint a JSON value stands: an object with the parts as members, among any others and
    in any order, or a list of the parts. -/
inductive Stands : Value → Endpoint → Prop where
  | record {members : List (String × Value)} {e : Endpoint}
      (parts : Parts (named "hostname" members) (named "port" members) (named "options" members) e) :
      Stands (.record members) e
  | list {hostname port : Value} {options : List Value} {e : Endpoint}
      (parts : Parts [hostname] [port] options e) : Stands (.list (hostname :: port :: options)) e

/-- A slot that values fill one after the other: only while it is empty can one be taken. -/
def Fills {α : Type} (f : Value → Option α) (before : Option α) : List Value → Option α → Prop
  | [], after => after = before
  | v :: vs, after => before = none ∧ ∃ x, f v = some x ∧ Fills f (some x) vs after

/-- The members of an object fill the three slots of a draft, each those of its name. -/
theorem foldlM_add {ms : List (String × Value)} {d d' : Draft} :
    ms.foldlM Draft.add d = some d' ↔
      Fills Value.text? d.hostname (named "hostname" ms) d'.hostname ∧
      Fills port? d.port (named "port" ms) d'.port ∧
      Fills Settings.ofJson? d.options (named "options" ms) d'.options := by
  induction ms generalizing d with
  | nil =>
    obtain ⟨h, p, o⟩ := d
    obtain ⟨h', p', o'⟩ := d'
    simp [named, Fills, eq_comm]
  | cons m ms ih =>
    simp only [List.foldlM_cons, Option.bind_eq_bind, Option.bind_eq_some_iff, ih, named_cons]
    obtain ⟨h, p, o⟩ := d
    -- Each name concerns its own slot, which must still be empty; the other two slots stay.
    by_cases hostname : m.1 = "hostname"
    · simp only [Draft.add, hostname, String.reduceEq, if_true, if_false]
      cases h with
      | some h => simp [Fills]
      | none =>
        cases found : m.2.text? with
        | none | some => simp [Fills, found]
    by_cases port : m.1 = "port"
    · simp only [Draft.add, port, String.reduceEq, if_true, if_false]
      cases p with
      | some p => simp [Fills]
      | none =>
        cases found : port? m.2 with
        | none | some => simp [Fills, found]
    by_cases options : m.1 = "options"
    · simp only [Draft.add, options, String.reduceEq, if_true, if_false]
      cases o with
      | some o => simp [Fills]
      | none =>
        cases found : Settings.ofJson? m.2 with
        | none | some => simp [Fills, found]
    · simp [Draft.add, hostname, port, options]

theorem fills_none {α : Type} {f : Value → Option α} {vs : List Value} {after : Option α} :
    Fills f none vs after ↔
      (vs = [] ∧ after = none) ∨ ∃ v x, vs = [v] ∧ f v = some x ∧ after = some x := by
  match vs with
  | [] => simp [Fills]
  | [v] => simp [Fills]
  | v :: w :: vs => simp [Fills]

/-- The parts of an object are found by decoding it. -/
theorem ofJson?_record {members : List (String × Value)} {e : Endpoint} :
    ofJson? (.record members) = some e ↔
      Parts (named "hostname" members) (named "port" members) (named "options" members) e := by
  simp only [ofJson?, Option.bind_eq_bind, Option.bind_eq_some_iff, foldlM_add, Option.pure_def,
    Option.some.injEq, Draft.empty, fills_none, Value.text?_eq_some, port?_eq_some,
    Settings.ofJson?_eq_some]
  constructor
  · rintro ⟨⟨h, p, o⟩, ⟨hostname, port, options⟩, h', rfl, p', rfl, rfl⟩
    obtain ⟨-, ⟨⟩⟩ | ⟨_, _, hostname, rfl, ⟨⟩⟩ := hostname
    obtain ⟨-, ⟨⟩⟩ | ⟨_, _, port, ⟨n, rfl, integer⟩, ⟨⟩⟩ := port
    refine ⟨hostname, ⟨n, port, integer⟩, ?_⟩
    obtain ⟨none, rfl⟩ | ⟨_, o, one, ⟨items, rfl, stands⟩, rfl⟩ := options
    · exact .inl ⟨none, rfl⟩
    · exact .inr ⟨items, one, stands⟩
  · rintro ⟨hostname, ⟨n, port, integer⟩, options⟩
    rcases options with ⟨none, empty⟩ | ⟨items, one, stands⟩
    · refine ⟨⟨some e.hostname, some e.port, Option.none⟩, ⟨.inr ⟨_, _, hostname, rfl, rfl⟩,
        .inr ⟨_, _, port, ⟨n, rfl, integer⟩, rfl⟩, .inl ⟨none, rfl⟩⟩, _, rfl, _, rfl, ?_⟩
      rw [← empty]
      rfl
    · exact ⟨⟨some e.hostname, some e.port, some e.options⟩, ⟨.inr ⟨_, _, hostname, rfl, rfl⟩,
        .inr ⟨_, _, port, ⟨n, rfl, integer⟩, rfl⟩, .inr ⟨_, _, one, ⟨items, rfl, stands⟩, rfl⟩⟩,
        _, rfl, _, rfl, rfl⟩

theorem options?_eq_some {vs : List Value} {o : Settings} :
    options? vs = some o ↔ (vs = [] ∧ o = .empty) ∨
      ∃ items, vs = [.list items] ∧ Settings.Stands items o.entries := by
  match vs with
  | [] => simp [options?, eq_comm]
  | [v] => simp [options?, Settings.ofJson?_eq_some]
  | v :: w :: vs => simp [options?]

theorem ofJson?_list {hostname port : Value} {options : List Value} {e : Endpoint} :
    ofJson? (.list (hostname :: port :: options)) = some e ↔ Parts [hostname] [port] options e := by
  simp only [ofJson?, Option.bind_eq_bind, Option.bind_eq_some_iff, Option.pure_def,
    Option.some.injEq, Value.text?_eq_some, port?_eq_some, options?_eq_some]
  constructor
  · rintro ⟨h, rfl, p, ⟨n, rfl, integer⟩, o, options, rfl⟩
    exact ⟨rfl, ⟨n, rfl, integer⟩, options⟩
  · rintro ⟨hostname, ⟨n, port, integer⟩, options⟩
    cases hostname
    cases port
    exact ⟨_, rfl, _, ⟨n, rfl, integer⟩, _, options, rfl⟩

/-- Decoding finds the endpoint that a value stands for. -/
theorem ofJson?_eq_some {v : Value} {e : Endpoint} : ofJson? v = some e ↔ Stands v e := by
  constructor
  · intro h
    match v with
    | .record members => exact .record (ofJson?_record.mp h)
    | .list (hostname :: port :: options) => exact .list (ofJson?_list.mp h)
  · intro h
    cases h with
    | record parts => exact ofJson?_record.mpr parts
    | list parts => exact ofJson?_list.mpr parts

/-- A value stands for one endpoint at most. -/
theorem Stands.unique {v : Value} {e e' : Endpoint} (h : Stands v e) (h' : Stands v e') : e' = e := by
  have same : some e' = some e := (ofJson?_eq_some.mpr h').symm.trans (ofJson?_eq_some.mpr h)
  exact Option.some.inj same

/-! ### Written values -/

/-- A written integer follows the format. -/
theorem tokens_ofInt (i : Int) : (Value.number (.ofInt i)).Tokens :=
  .number (Number.isToken_iff.mpr (Number.token_ofInt i))

theorem tokens_options (s : Settings) : s.toJson.Tokens := by
  refine .list fun v hv => ?_
  obtain ⟨⟨name, value⟩, -, rfl⟩ := List.mem_map.mp hv
  have option : value.toJson.Tokens := by
    cases value with
    | truth b => exact .truth b
    | whole i => exact tokens_ofInt _
    | text t => exact .text t
  refine .list fun w hw => ?_
  obtain rfl | rfl : w = .text name ∨ w = value.toJson := by simpa using hw
  · exact .text name
  · exact option

theorem stands_options (es : List (String × Setting)) :
    Settings.Stands (es.map fun (name, value) => .list [.text name, value.toJson]) es := by
  induction es with
  | nil => exact .nil
  | cons entry es ih =>
    obtain ⟨name, value⟩ := entry
    refine .cons name ?_ ih
    cases value with
    | truth b => exact .truth b
    | whole i => exact .whole (Number.integer?_ofInt _)
    | text t => exact .text t

/-- The members that an endpoint is written with. -/
theorem toJson_eq (e : Endpoint) : e.toJson = .record ([("hostname", .text e.hostname),
    ("port", .number (.ofInt e.port.toNat))] ++
      if e.options.isEmpty then [] else [("options", e.options.toJson)]) := by
  unfold toJson
  cases e.options.isEmpty with
  | true | false => rfl

theorem tokens_toJson (e : Endpoint) : e.toJson.Tokens := by
  rw [toJson_eq]
  refine .record fun m hm => ?_
  obtain rfl | rfl | rfl : m = ("hostname", .text e.hostname) ∨
      m = ("port", .number (.ofInt e.port.toNat)) ∨ m = ("options", e.options.toJson) := by
    cases h : e.options.isEmpty with
    | true => exact .imp_right .inl (by simpa [h] using hm)
    | false => simpa [h] using hm
  · exact .text e.hostname
  · exact tokens_ofInt e.port.toNat
  · exact tokens_options e.options

/-- An endpoint is written as a value that stands for it. -/
theorem stands_toJson (e : Endpoint) : Stands e.toJson e := by
  rw [toJson_eq]
  cases h : e.options.isEmpty with
  | true =>
    have empty : e.options = .empty := by
      obtain ⟨hostname, port, ⟨entries⟩⟩ := e
      obtain rfl : entries = [] := by simpa [Settings.isEmpty] using h
      rfl
    exact .record ⟨rfl, ⟨_, rfl, Number.integer?_ofInt _⟩, .inl ⟨rfl, empty⟩⟩
  | false =>
    exact .record ⟨rfl, ⟨_, rfl, Number.integer?_ofInt _⟩, .inr ⟨_, rfl, stands_options _⟩⟩

/-! ### Whole texts -/

/-- A value that stands for an endpoint is read as that endpoint, if that has a host name. -/
theorem ofText_of_stands {v : Value} {e : Endpoint} (tokens : v.Tokens) (stands : Stands v e) :
    Endpoint.ofText (String.ofList v.compact) =
      if e.hostname = "" then .error (.invalidParameter "hostname") else .ok e := by
  have read : Endpoint.read v.compact = .ok (e, []) := by
    have yields : Json.Yields (Endpoint.read (v.compact ++ [])) (ofJson? v) [] := read_yields tokens
    rw [ofJson?_eq_some.mpr stands, List.append_nil] at yields
    exact yields.ok
  have document : readDocument Endpoint.read (String.ofList v.compact) = .ok e := by
    simp only [readDocument, Json.document, String.toList_ofList, read]
    rfl
  rw [Endpoint.ofText, document, Json.ok_bind, validate]
  split
  · rfl
  · rfl

/-- A value that stands for none is refused for its form. -/
theorem ofText_of_not_stands {v : Value} (tokens : v.Tokens) (none : ∀ e, ¬ Stands v e) :
    ∃ flaw, Endpoint.ofText (String.ofList v.compact) = .error (.configuration flaw) := by
  have undecoded : ofJson? v = Option.none :=
    Option.eq_none_iff_forall_ne_some.mpr fun e h => none e (ofJson?_eq_some.mp h)
  obtain ⟨flaw, refused⟩ : ∃ flaw, Endpoint.read v.compact = .error flaw := by
    have yields : Json.Yields (Endpoint.read (v.compact ++ [])) (ofJson? v) [] := read_yields tokens
    rw [undecoded, List.append_nil] at yields
    exact yields
  refine ⟨flaw, ?_⟩
  simp only [Endpoint.ofText, readDocument, Json.document, String.toList_ofList, refused]
  rfl

/-- **Acceptance.** Take any JSON value, nested to any depth, whose numbers follow the format. Its
    compact text is read as an endpoint exactly if it stands for that endpoint and the host name is not
    empty. If only the host name is at fault, that is what is said; and whatever stands for no endpoint
    at all is refused for its form. -/
theorem ofText_compact {v : Value} (tokens : v.Tokens) :
    (∀ e, Endpoint.ofText (String.ofList v.compact) = .ok e ↔ Stands v e ∧ e.hostname ≠ "") ∧
    (Endpoint.ofText (String.ofList v.compact) = .error (.invalidParameter "hostname") ↔
      ∃ e, Stands v e ∧ e.hostname = "") ∧
    ((∃ flaw, Endpoint.ofText (String.ofList v.compact) = .error (.configuration flaw)) ↔
      ∀ e, ¬ Stands v e) := by
  by_cases found : ∃ e, Stands v e
  · obtain ⟨e, stands⟩ := found
    rw [ofText_of_stands tokens stands]
    by_cases nameless : e.hostname = ""
    · rw [if_pos nameless]
      refine ⟨fun e' => ⟨nofun, ?_⟩, ⟨fun _ => ⟨e, stands, nameless⟩, fun _ => rfl⟩, ⟨nofun, ?_⟩⟩
      · rintro ⟨h, named⟩
        rw [stands.unique h] at named
        exact absurd nameless named
      · exact fun none => absurd stands (none e)
    · rw [if_neg nameless]
      refine ⟨fun e' => ⟨?_, ?_⟩, ⟨nofun, ?_⟩, ⟨nofun, ?_⟩⟩
      · rintro ⟨⟩
        exact ⟨stands, nameless⟩
      · exact fun h => by rw [stands.unique h.1]
      · rintro ⟨e', h, empty⟩
        rw [stands.unique h] at empty
        exact absurd empty nameless
      · exact fun none => absurd stands (none e)
  · have none : ∀ e, ¬ Stands v e := fun e h => found ⟨e, h⟩
    obtain ⟨flaw, refused⟩ := ofText_of_not_stands tokens none
    rw [refused]
    exact ⟨fun e => ⟨nofun, fun h => absurd h.1 (none e)⟩,
      ⟨nofun, fun ⟨e, h, _⟩ => absurd h (none e)⟩, ⟨fun _ => none, fun _ => ⟨flaw, rfl⟩⟩⟩

/-- Other members are skipped, though a number in one of them has no float, and a repeated option is
    kept twice. -/
theorem ofText_compact_huge :
    let huge : Number := ⟨false, ['1'], [], some ⟨'e', none, ['4', '0', '0']⟩⟩
    let v := Value.record [("note", .list [.number huge, .null]), ("port", .number (.ofInt 8883)),
      ("options", .list [.list [.text "a", .truth true], .list [.text "a", .number (.ofInt (-1))]]),
      ("hostname", .text "host")]
    v.Tokens ∧ Endpoint.ofText (String.ofList v.compact) =
      .ok ⟨"host", 8883, ⟨[("a", .truth true), ("a", .whole (-1))]⟩⟩ := by
  intro huge v
  have note : (Value.list [.number huge, .null]).Tokens := by
    refine .list ?_
    simp only [List.forall_mem_cons, List.not_mem_nil, false_implies, implies_true, and_true]
    exact ⟨.number (by decide), .null⟩
  have options := tokens_options ⟨[("a", .truth true), ("a", .whole (-1))]⟩
  have tokens : v.Tokens := by
    refine .record ?_
    simp only [List.forall_mem_cons, List.not_mem_nil, false_implies, implies_true, and_true]
    exact ⟨note, tokens_ofInt _, options, .text _⟩
  have stands : Stands v ⟨"host", 8883, ⟨[("a", .truth true), ("a", .whole (-1))]⟩⟩ :=
    .record ⟨rfl, ⟨_, rfl, by decide⟩,
      .inr ⟨_, rfl, .cons "a" (.truth true) (.cons "a" (.whole (by decide)) .nil)⟩⟩
  exact ⟨tokens, ((ofText_compact tokens).1 _).mpr ⟨stands, by decide⟩⟩

/-- **Round trip.** Writing an endpoint and reading the text again gives the same endpoint, its options
    in order and with repeated names, unless it has no host name: then that is what is said. -/
theorem ofText_json (e : Endpoint) : Endpoint.ofText e.json =
    if e.hostname = "" then .error (.invalidParameter "hostname") else .ok e :=
  ofText_of_stands (tokens_toJson e) (stands_toJson e)

end Endpoint

end PolledConnection
