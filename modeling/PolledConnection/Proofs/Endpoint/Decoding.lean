import PolledConnection.Endpoint.Text
import PolledConnection.Proofs.Json.Value

/-! # Reading is decoding

  The readers of an endpoint work on characters, and stop at the first flaw
  without having seen what follows. On the compact text of a JSON value they
  come to what can be made of the value itself: `Endpoint.ofJson?` is the
  specification of `Endpoint.read`, part by part.
-/

namespace PolledConnection

open Json (Value Closes Yields awaited)

variable {v : Value} {rest : List Char}

/-! ### Options -/

/-- The entry that a JSON value stands for. -/
def Settings.pair? : Value → Option (String × Setting)
  | .list [name, value] => do return (← name.text?, ← Setting.ofJson? value)
  | _ => none

/-- The list of options that a JSON value stands for. -/
def Settings.ofJson? : Value → Option Settings
  | .list items => (items.mapM pair?).map Settings.mk
  | _ => none

/-- No list and no object is an option value. -/
theorem Setting.ofJson?_nested (nested : 0 < v.depth) : Setting.ofJson? v = none := by
  cases v with
  | list | record => rfl
  | null | truth | number | text => simp [Value.depth] at nested

/-- An option value is whole and has a float, so it can be read back. -/
theorem Setting.legible_of_ofJson? {s : Setting} (tokens : v.Tokens)
    (h : Setting.ofJson? v = some s) : v.Numbers (·.Legible .strict) ∧ v.depth = 0 := by
  cases tokens with
  | null => exact ⟨.null, rfl⟩
  | truth b => exact ⟨.truth b, rfl⟩
  | text s => exact ⟨.text s, rfl⟩
  | number token =>
    simp only [Setting.ofJson?, Option.map_eq_some_iff] at h
    obtain ⟨i, value, -⟩ := h
    have float := Json.Number.isRepresentable_of_integerIn? (by decide) (by decide) value
    exact ⟨.number ⟨token, .inr float⟩, rfl⟩
  | list | record => simp [Setting.ofJson?] at h

/-- Reading an option value comes to what its JSON value stands for. -/
theorem Setting.read_yields (tokens : v.Tokens) {depth : Nat}
    (shallow : depth ≤ Json.depthLimit) (closes : Closes rest) :
    Yields (Setting.read depth (v.compact ++ rest)) (Setting.ofJson? v) rest := by
  cases hs : Setting.ofJson? v with
  | some s =>
    obtain ⟨legible, flat⟩ := Setting.legible_of_ofJson? tokens hs
    show Setting.read depth (v.compact ++ rest) = .ok (s, rest)
    rw [Setting.read, Value.read_compact legible (by omega) closes, Json.ok_bind]
    simp only [hs]
    rfl
  | none =>
    show ∃ flaw, Setting.read depth (v.compact ++ rest) = .error flaw
    rw [Setting.read]
    -- The value may be nested too deep or have no float; then reading it fails before its type does.
    cases read : Value.read depth (v.compact ++ rest) with
    | error flaw => exact ⟨flaw, rfl⟩
    | ok found =>
      obtain ⟨w, behind⟩ := found
      have other : Setting.ofJson? w = none := by
        rcases Value.read_kind tokens closes read with rfl | ⟨-, nested⟩
        · exact hs
        · exact Setting.ofJson?_nested nested
      exact ⟨.mistyped, by rw [Json.ok_bind]; simp only [other]; rfl⟩

/-- Reading an option comes to what its JSON value stands for. -/
theorem Settings.readEntry_yields (tokens : v.Tokens) {depth : Nat}
    (shallow : depth + 1 ≤ Json.depthLimit) :
    Yields (Settings.readEntry depth (v.compact ++ rest)) (Settings.pair? v) rest := by
  by_cases list : ∃ items, v = .list items
  · obtain ⟨items, rfl⟩ := list
    have next {v : Value} (hv : v ∈ items) (first : Bool) (texts : List (List Char))
        (rest : List Char) :=
      Json.nextItem_item (.inl rfl) (Json.compact_starts (tokens.items v hv)) first texts rest
    rw [Json.list_append, Settings.readEntry, Json.skipBlanks_cons (by decide)]
    -- A list too short is found out where an item is missing, one too long only behind the value.
    match items with
    | [] =>
      simp only [List.map_nil, Json.nextItem_end (.inl rfl), Json.ok_bind]
      exact ⟨_, rfl⟩
    | [name] =>
      simp only [List.map_cons, next (v := name) (by simp), Json.ok_bind]
      refine (Json.readString_yields (tokens.items name (by simp))).bind_none fun s => ?_
      simp only [List.map_nil, Json.nextItem_end (.inl rfl), Json.ok_bind]
      exact ⟨_, rfl⟩
    | [name, value] =>
      simp only [List.map_cons, next (v := name) (by simp), Json.ok_bind]
      refine (Json.readString_yields (tokens.items name (by simp))).bind fun n _ => ?_
      simp only [next (v := value) (by simp), Json.ok_bind]
      refine (Setting.read_yields (tokens.items value (by simp)) shallow
        (Json.closes_awaited (.inl rfl) _ _)).bind fun s _ => ?_
      simp only [List.map_nil, Json.awaited_nil, List.nil_append]
      rfl
    | name :: value :: extra :: more =>
      simp only [List.map_cons, next (v := name) (by simp), Json.ok_bind]
      refine (Json.readString_yields (tokens.items name (by simp))).bind_none fun n => ?_
      simp only [next (v := value) (by simp), Json.ok_bind]
      refine (Setting.read_yields (tokens.items value (by simp)) shallow
        (Json.closes_awaited (.inl rfl) _ _)).bind_none fun s => ?_
      exact ⟨.malformed, rfl⟩
  · have none : Settings.pair? v = none := by
      cases v with
      | list items => exact absurd ⟨items, rfl⟩ list
      | null | truth | number | text | record => rfl
    rw [none, Settings.readEntry]
    split
    · next bracket => exact absurd bracket (Json.skipBlanks_ne_list tokens list _)
    · exact ⟨_, rfl⟩

/-- Reading a list of options comes to what its JSON value stands for. -/
theorem Settings.read_yields (tokens : v.Tokens) {depth : Nat}
    (shallow : depth + 2 ≤ Json.depthLimit) :
    Yields (Settings.read depth (v.compact ++ rest)) (Settings.ofJson? v) rest := by
  by_cases list : ∃ items, v = .list items
  · obtain ⟨items, rfl⟩ := list
    have starts : ∀ v ∈ items, Json.Starts ']' v.compact :=
      fun v hv => Json.compact_starts (tokens.items v hv)
    have few : items.length < (awaited true (items.map Value.compact) ++ ']' :: rest).length + 1 := by
      have part := Json.length_le_awaited true starts
      rw [List.length_append]
      omega
    rw [Json.list_append, Settings.read, Json.skipBlanks_cons (by decide)]
    have entries := Json.itemsOf_yields items starts
      (fun v hv _ _ => Settings.readEntry_yields (tokens.items v hv) shallow) few true rest
    have same : Settings.ofJson? (.list items) = (items.mapM pair?).bind fun es => some ⟨es⟩ := by
      rw [Settings.ofJson?, Option.map_eq_bind]
      rfl
    rw [same]
    exact entries.bind fun es _ => rfl
  · have none : Settings.ofJson? v = none := by
      cases v with
      | list items => exact absurd ⟨items, rfl⟩ list
      | null | truth | number | text | record => rfl
    rw [none, Settings.read]
    split
    · next bracket => exact absurd bracket (Json.skipBlanks_ne_list tokens list _)
    · exact ⟨_, rfl⟩

namespace Endpoint

/-! ### Parts -/

/-- The port that a JSON value stands for. -/
def port? (v : Value) : Option UInt16 := (v.integerIn? 0 65535).map fun i => UInt16.ofNat i.toNat

/-- A draft with one more member of an object. -/
def Draft.add (d : Draft) (m : String × Value) : Option Draft :=
  if m.1 = "hostname" then
    if d.hostname.isSome then none else m.2.text?.map fun h => { d with hostname := some h }
  else if m.1 = "port" then
    if d.port.isSome then none else (port? m.2).map fun p => { d with port := some p }
  else if m.1 = "options" then
    if d.options.isSome then none
    else (Settings.ofJson? m.2).map fun o => { d with options := some o }
  else some d

/-- The options that stand behind host name and port in a list. -/
def options? : List Value → Option Settings
  | [] => some .empty
  | [options] => Settings.ofJson? options
  | _ => none

/-- The endpoint that a JSON value stands for. -/
def ofJson? : Value → Option Endpoint
  | .record members => do
    let d ← members.foldlM Draft.add .empty
    return ⟨← d.hostname, ← d.port, d.options.getD .empty⟩
  | .list (hostname :: port :: options) => do
    return ⟨← hostname.text?, ← port? port, ← options? options⟩
  | _ => none

theorem readPort_yields (tokens : v.Tokens) (closes : Closes rest) :
    Yields (readPort (v.compact ++ rest)) (port? v) rest := by
  rw [port?, Option.map_eq_bind]
  exact (Json.readInteger_yields tokens (by decide) (by decide) closes).bind fun i _ => rfl

/-- Reading a member comes to what it adds to the draft. -/
theorem readMember_yields (d : Draft) {m : String × Value} (tokens : m.2.Tokens)
    (closes : Closes rest) :
    Yields (readMember d m.1 (':' :: (m.2.compact ++ rest))) (d.add m) rest := by
  unfold readMember Draft.add
  by_cases hostname : m.1 = "hostname"
  · simp only [hostname, if_true]
    by_cases known : d.hostname.isSome = true
    · simp only [known, if_true]
      exact ⟨_, rfl⟩
    · simp only [known, Json.colon_cons, Json.ok_bind, Option.map_eq_bind]
      exact (Json.readString_yields tokens).bind fun s _ => rfl
  by_cases port : m.1 = "port"
  · simp only [port, String.reduceEq, if_false, if_true]
    by_cases known : d.port.isSome = true
    · simp only [known, if_true]
      exact ⟨_, rfl⟩
    · simp only [known, Json.colon_cons, Json.ok_bind, Option.map_eq_bind]
      exact (readPort_yields tokens closes).bind fun p _ => rfl
  by_cases options : m.1 = "options"
  · simp only [options, String.reduceEq, if_false, if_true]
    by_cases known : d.options.isSome = true
    · simp only [known, if_true]
      exact ⟨_, rfl⟩
    · simp only [known, Json.colon_cons, Json.ok_bind, Option.map_eq_bind]
      exact (Settings.read_yields tokens (by decide)).bind fun o _ => rfl
  · simp only [hostname, port, options, if_false, Json.colon_cons, Json.ok_bind,
      Value.skip_compact tokens closes]
    rfl

/-- **Run**: reading the members of an object comes to what they add to the draft one by one. -/
theorem readMembers_yields (ms : List (String × Value))
    (tokens : ∀ m ∈ ms, m.2.Tokens) {fuel : Nat} (enough : ms.length < fuel)
    (first : Bool) (d : Draft) (rest : List Char) :
    Yields (readMembers fuel first d (awaited first (ms.map Json.memberChars) ++ '}' :: rest))
      (ms.foldlM Draft.add d) rest := by
  induction ms generalizing fuel first d with
  | nil =>
    obtain ⟨fuel, rfl⟩ := Nat.exists_eq_add_one.mpr (Nat.zero_lt_of_lt enough)
    rw [readMembers, List.map_nil, Json.nextMember_end, List.foldlM_nil]
    rfl
  | cons m ms ih =>
    obtain ⟨fuel, rfl⟩ := Nat.exists_eq_add_one.mpr (Nat.zero_lt_of_lt enough)
    simp only [List.mem_cons, forall_eq_or_imp] at tokens
    rw [readMembers, List.map_cons, Json.nextMember_member, Json.ok_bind, List.foldlM_cons]
    refine (readMember_yields d tokens.1 (Json.closes_awaited (.inr rfl) _ _)).bind fun d _ => ?_
    exact ih tokens.2 (Nat.lt_of_succ_lt_succ enough) false d

/-- Reading the parts as the items of a list comes to what the list stands for. -/
theorem readItems_yields (items : List Value) (tokens : ∀ v ∈ items, v.Tokens) :
    Yields (readItems (awaited true (items.map Value.compact) ++ ']' :: rest)) (ofJson? (.list items))
      rest := by
  have next {v : Value} (hv : v ∈ items) (first : Bool) (texts : List (List Char))
      (rest : List Char) :=
    Json.nextItem_item (.inl rfl) (Json.compact_starts (tokens v hv)) first texts rest
  unfold readItems
  match items with
  | [] =>
    simp only [List.map_nil, Json.nextItem_end (.inl rfl), Json.ok_bind]
    exact ⟨_, rfl⟩
  | [hostname] =>
    simp only [List.map_cons, next (v := hostname) (by simp), Json.ok_bind]
    refine (Json.readString_yields (tokens hostname (by simp))).bind_none fun s => ?_
    simp only [List.map_nil, Json.nextItem_end (.inl rfl), Json.ok_bind]
    exact ⟨_, rfl⟩
  | hostname :: port :: options =>
    simp only [List.map_cons, next (v := hostname) (by simp), Json.ok_bind]
    refine (Json.readString_yields (tokens hostname (by simp))).bind fun s _ => ?_
    simp only [next (v := port) (by simp), Json.ok_bind]
    refine (readPort_yields (tokens port (by simp)) (Json.closes_awaited (.inl rfl) _ _)).bind
      fun p _ => ?_
    match options with
    | [] =>
      simp only [List.map_nil, Json.nextItem_end (.inl rfl), Json.ok_bind]
      rfl
    | [options] =>
      simp only [List.map_cons, next (v := options) (by simp), Json.ok_bind]
      refine (Settings.read_yields (tokens options (by simp)) (by decide)).bind fun o _ => ?_
      simp only [List.map_nil, Json.awaited_nil, List.nil_append]
      rfl
    | options :: extra :: more =>
      simp only [List.map_cons, next (v := options) (by simp), Json.ok_bind]
      refine (Settings.read_yields (tokens options (by simp)) (by decide)).bind_none fun o => ?_
      exact ⟨.malformed, rfl⟩

/-- **Reading is decoding**: on the compact text of a JSON value, reading an endpoint comes to what
    the value stands for. -/
theorem read_yields (tokens : v.Tokens) :
    Yields (read (v.compact ++ rest)) (ofJson? v) rest := by
  by_cases list : ∃ items, v = .list items
  · obtain ⟨items, rfl⟩ := list
    rw [Json.list_append, read, Json.skipBlanks_cons (by decide)]
    exact readItems_yields items tokens.items
  by_cases record : ∃ members, v = .record members
  · obtain ⟨members, rfl⟩ := record
    have few :
        members.length < (awaited true (members.map Json.memberChars) ++ '}' :: rest).length + 1 := by
      have part := Json.length_le_awaited true fun m (_ : m ∈ members) => Json.memberChars_starts m
      rw [List.length_append]
      omega
    have parts := readMembers_yields members tokens.members few true .empty rest
    rw [Json.record_append, read, Json.skipBlanks_cons (by decide)]
    refine parts.bind fun d _ => ?_
    rcases d with ⟨_ | hostname, _ | port, options⟩
    · exact ⟨_, rfl⟩
    · exact ⟨_, rfl⟩
    · exact ⟨_, rfl⟩
    · rfl
  · have none : ofJson? v = none := by
      cases v with
      | list items => exact absurd ⟨items, rfl⟩ list
      | record members => exact absurd ⟨members, rfl⟩ record
      | null | truth | number | text => rfl
    rw [none, read]
    split
    · next brace => exact absurd brace (Json.skipBlanks_ne_record tokens record _)
    · next bracket => exact absurd bracket (Json.skipBlanks_ne_list tokens list _)
    · exact ⟨_, rfl⟩

end Endpoint

end PolledConnection
