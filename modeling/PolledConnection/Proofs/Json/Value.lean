import PolledConnection.Proofs.Json.Number
import PolledConnection.Proofs.Json.Text

/-! # Values are read back

  A value whose numbers follow the format is read back from its compact text
  (`readWith_compact`): always where it is skipped, and where it is wanted if
  its numbers have floats and it is not nested too deep. The readers of a
  wanted type make of such a text what the value itself says
  (`readString_yields`, `readInteger_yields`).
-/

namespace PolledConnection.Json

variable {rigor : Rigor} {rest : List Char}

/-! ### Shape -/

/-- The text of a member of an object. -/
def memberChars (m : String × Value) : List Char := quoted m.1 ++ ':' :: m.2.compact

theorem compactItems_eq (items : List Value) :
    Value.compactItems items = items.map Value.compact := by
  induction items with
  | nil => rfl
  | cons v vs ih => rw [Value.compactItems, ih, List.map_cons]

theorem compactMembers_eq (members : List (String × Value)) :
    Value.compactMembers members = members.map memberChars := by
  induction members with
  | nil => rfl
  | cons m ms ih => rw [Value.compactMembers, ih, List.map_cons, memberChars]

theorem compact_list (items : List Value) :
    (Value.list items).compact = '[' :: (awaited true (items.map Value.compact) ++ [']']) := by
  rw [Value.compact, compactItems_eq]
  rfl

theorem list_append (items : List Value) (rest : List Char) :
    (Value.list items).compact ++ rest =
      '[' :: (awaited true (items.map Value.compact) ++ ']' :: rest) := by
  simp [compact_list]

theorem compact_record (members : List (String × Value)) :
    (Value.record members).compact = '{' :: (awaited true (members.map memberChars) ++ ['}']) := by
  rw [Value.compact, compactMembers_eq]
  rfl

theorem record_append (members : List (String × Value)) (rest : List Char) :
    (Value.record members).compact ++ rest =
      '{' :: (awaited true (members.map memberChars) ++ '}' :: rest) := by
  simp [compact_record]

/-- Every number in a value is of a kind. -/
inductive Value.Numbers (p : Number → Prop) : Value → Prop where
  | null : Numbers p .null
  | truth (b : Bool) : Numbers p (.truth b)
  | number {n : Number} (h : p n) : Numbers p (.number n)
  | text (s : String) : Numbers p (.text s)
  | list {items : List Value} (h : ∀ v ∈ items, Numbers p v) : Numbers p (.list items)
  | record {members : List (String × Value)} (h : ∀ m ∈ members, Numbers p m.2) :
    Numbers p (.record members)

/-- Every number in a value follows the format. -/
abbrev Value.Tokens (v : Value) : Prop := v.Numbers (·.isToken = true)

theorem Value.Numbers.imp {p q : Number → Prop} (h : ∀ n, p n → q n) {v : Value}
    (hv : v.Numbers p) : v.Numbers q := by
  induction hv with
  | null => exact .null
  | truth b => exact .truth b
  | number hn => exact .number (h _ hn)
  | text s => exact .text s
  | list _ ih => exact .list ih
  | record _ ih => exact .record ih

theorem Value.Numbers.items {p : Number → Prop} {items : List Value}
    (h : (Value.list items).Numbers p) : ∀ v ∈ items, v.Numbers p := by
  cases h with
  | list h => exact h

theorem Value.Numbers.members {p : Number → Prop} {members : List (String × Value)}
    (h : (Value.record members).Numbers p) : ∀ m ∈ members, m.2.Numbers p := by
  cases h with
  | record h => exact h

/-- A number that can be read back from its text. -/
def Number.Legible (rigor : Rigor) (n : Number) : Prop :=
  n.isToken = true ∧ (rigor = .lenient ∨ n.isRepresentable = true)

theorem depth_lt_of_mem {v : Value} {items : List Value} (h : v ∈ items) :
    v.depth < (Value.list items).depth := by
  induction items with
  | nil => simp at h
  | cons w ws ih =>
    simp only [Value.depth, Value.depthItems] at ih ⊢
    rcases List.mem_cons.mp h with rfl | h
    · omega
    · have below := ih h
      omega

theorem depth_lt_of_mem_members {m : String × Value} {members : List (String × Value)}
    (h : m ∈ members) : m.2.depth < (Value.record members).depth := by
  induction members with
  | nil => simp at h
  | cons k ks ih =>
    simp only [Value.depth, Value.depthMembers] at ih ⊢
    rcases List.mem_cons.mp h with rfl | h
    · omega
    · have below := ih h
      omega

/-! ### First characters -/

/-- The first character of a number is the first of no other value, and neither blank nor the end of
    a list. -/
theorem numeral_ne {c : Char} (h : c = '-' ∨ c.isDigit = true) :
    c ≠ 'n' ∧ c ≠ 't' ∧ c ≠ 'f' ∧ c ≠ '"' ∧ c ≠ '[' ∧ c ≠ '{' ∧ c ≠ ']' ∧ isBlank c = false := by
  have other (d : Char) (hd : ¬ (d = '-' ∨ d.isDigit = true)) : c ≠ d := by
    rintro rfl
    exact hd h
  have blank : isBlank c = false := by
    simp [isBlank, other ' ' (by decide), other '\n' (by decide), other '\t' (by decide),
      other '\r' (by decide)]
  exact ⟨other _ (by decide), other _ (by decide), other _ (by decide), other _ (by decide),
    other _ (by decide), other _ (by decide), other _ (by decide), blank⟩

/-- What the first character of a value tells. -/
structure Opening (v : Value) (c : Char) : Prop where
  blank : isBlank c = false
  endList : c ≠ ']'
  list : c = '[' → ∃ items, v = .list items
  record : c = '{' → ∃ members, v = .record members
  text : c = '"' → ∃ s, v = .text s

theorem compact_opening {v : Value} (tokens : v.Tokens) :
    ∃ c cs, v.compact = c :: cs ∧ Opening v c := by
  cases tokens with
  | null => exact ⟨'n', _, by simp [Value.compact]; rfl, by constructor <;> simp [isBlank]⟩
  | truth b =>
    cases b with
    | true =>
      exact ⟨'t', _, by simp [Value.compact, truthChars]; rfl, by constructor <;> simp [isBlank]⟩
    | false =>
      exact ⟨'f', _, by simp [Value.compact, truthChars]; rfl, by constructor <;> simp [isBlank]⟩
  | number token =>
    obtain ⟨c, cs, chars, numeral⟩ := (Number.isToken_iff.mp token).chars_start
    obtain ⟨-, -, -, quote, list, record, endList, blank⟩ := numeral_ne numeral
    exact ⟨c, cs, by rw [Value.compact, chars], blank, endList, (absurd · list), (absurd · record),
      (absurd · quote)⟩
  | text s => exact ⟨'"', _, by rw [Value.compact, quoted], by constructor <;> simp [isBlank]⟩
  | list => exact ⟨'[', _, by rw [compact_list], by constructor <;> simp [isBlank]⟩
  | record => exact ⟨'{', _, by rw [compact_record], by constructor <;> simp [isBlank]⟩

/-- Only a list starts like one. -/
theorem skipBlanks_ne_list {v : Value} (tokens : v.Tokens)
    (other : ¬ ∃ items, v = .list items) (cs : List Char) :
    skipBlanks (v.compact ++ rest) ≠ '[' :: cs := by
  obtain ⟨c, more, chars, opening⟩ := compact_opening tokens
  rw [chars, List.cons_append, skipBlanks_cons opening.blank]
  intro same
  exact other (opening.list (List.cons.inj same).1)

/-- Only an object starts like one. -/
theorem skipBlanks_ne_record {v : Value} (tokens : v.Tokens)
    (other : ¬ ∃ members, v = .record members) (cs : List Char) :
    skipBlanks (v.compact ++ rest) ≠ '{' :: cs := by
  obtain ⟨c, more, chars, opening⟩ := compact_opening tokens
  rw [chars, List.cons_append, skipBlanks_cons opening.blank]
  intro same
  exact other (opening.record (List.cons.inj same).1)

theorem compact_starts {v : Value} (tokens : v.Tokens) : Starts ']' v.compact := by
  obtain ⟨c, cs, chars, opening⟩ := compact_opening tokens
  exact ⟨c, cs, chars, opening.blank, opening.endList⟩

theorem memberChars_starts (m : String × Value) : Starts '}' (memberChars m) :=
  ⟨'"', _, by rw [memberChars, quoted]; rfl, by decide⟩

/-! ### Members -/

@[simp] theorem colon_cons (cs : List Char) : colon (':' :: cs) = .ok cs := rfl

theorem nextMember_member {first : Bool} {texts : List (List Char)} (m : String × Value) :
    nextMember rigor first (awaited first (memberChars m :: texts) ++ rest) =
      .ok (.inr (m.1, ':' :: (m.2.compact ++ (awaited false texts ++ rest)))) := by
  rw [nextMember, nextItem_item (.inr rfl) (memberChars_starts m) first texts rest, memberChars,
    List.append_assoc, quoted_append]
  simp only [if_true, List.cons_append, readText_quoted]
  rfl

theorem nextMember_end {first : Bool} :
    nextMember rigor first (awaited first [] ++ '}' :: rest) = .ok (.inl rest) := by
  rw [nextMember, nextItem_end (.inr rfl)]

/-- Members are read back if their values are. -/
theorem membersOf_compact {value : List Char → Reading Value} (ms : List (String × Value))
    (values : ∀ m ∈ ms, ∀ rest, Closes rest → value (m.2.compact ++ rest) = .ok (m.2, rest))
    {fuel : Nat} (enough : ms.length < fuel) (first : Bool) (rest : List Char) :
    membersOf rigor value fuel first (awaited first (ms.map memberChars) ++ '}' :: rest) =
      .ok (ms, rest) := by
  induction ms generalizing fuel first with
  | nil =>
    obtain ⟨fuel, rfl⟩ := Nat.exists_eq_add_one.mpr (Nat.zero_lt_of_lt enough)
    rw [membersOf, List.map_nil, nextMember_end]
    rfl
  | cons m ms ih =>
    obtain ⟨fuel, rfl⟩ := Nat.exists_eq_add_one.mpr (Nat.zero_lt_of_lt enough)
    simp only [List.mem_cons, forall_eq_or_imp, List.length_cons] at values enough
    have more := ih values.2 (Nat.lt_of_succ_lt_succ enough) false
    rw [membersOf, List.map_cons, nextMember_member]
    simp only [ok_bind, colon_cons, values.1 _ (closes_awaited (.inr rfl) _ _), more]
    rfl

/-! ### Scalars -/

/-- A number is read back, if it is skipped or has a float. -/
theorem readScalar_number {n : Number} (token : n.isToken = true) (closes : Closes rest) :
    readScalar rigor (n.chars ++ rest) =
      if rigor = .lenient ∨ n.isRepresentable = true then .ok (.number n, rest)
      else .error .malformed := by
  have token := Number.isToken_iff.mp token
  obtain ⟨c, cs, chars, numeral⟩ := token.chars_start
  obtain ⟨null, yes, no, quote, -⟩ := numeral_ne numeral
  have read : Number.read rigor (n.chars ++ rest) = _ := token.read_chars closes
  rw [chars, List.cons_append] at read ⊢
  rw [readScalar]
  simp only [null, yes, no, quote, if_false, numeral, if_true, read]
  split <;> rfl

theorem literal_append (word rest : List Char) : literal word (word ++ rest) = .ok rest := by
  induction word with
  | nil => cases rest <;> rfl
  | cons c cs ih => rw [List.cons_append, literal, if_pos rfl, ih]

/-- A value that is neither a list nor an object is read back. -/
theorem readScalar_compact {v : Value} (numbers : v.Numbers (·.Legible rigor))
    (scalar : v.depth = 0) (closes : Closes rest) :
    readScalar rigor (v.compact ++ rest) = .ok (v, rest) := by
  cases numbers with
  | null =>
    show (literal "ull".toList ("ull".toList ++ rest)).map _ = _
    rw [literal_append]
    rfl
  | truth b =>
    cases b with
    | true =>
      show (literal "rue".toList ("rue".toList ++ rest)).map _ = _
      rw [literal_append]
      rfl
    | false =>
      show (literal "alse".toList ("alse".toList ++ rest)).map _ = _
      rw [literal_append]
      rfl
  | number legible => rw [Value.compact, readScalar_number legible.1 closes, if_pos legible.2]
  | text s =>
    rw [Value.compact, quoted_append]
    show (readText rigor _).map _ = _
    rw [readText_quoted]
    rfl
  | list => simp [Value.depth] at scalar
  | record => simp [Value.depth] at scalar

/-! ### Whole values -/

theorem length_lt_of_mem {v : Value} {items : List Value} (h : v ∈ items) :
    v.compact.length < (Value.list items).compact.length := by
  have part := length_le_of_mem (List.mem_map_of_mem (f := Value.compact) h)
  simp only [compact_list, List.length_cons, List.length_append]
  omega

theorem length_lt_of_mem_members {m : String × Value} {members : List (String × Value)}
    (h : m ∈ members) : m.2.compact.length < (Value.record members).compact.length := by
  have part := length_le_of_mem (List.mem_map_of_mem (f := memberChars) h)
  simp only [memberChars, List.length_append, List.length_cons] at part
  simp only [compact_record, List.length_cons, List.length_append]
  omega

theorem tooDeep_eq_false {budget : Nat} (room : rigor = .lenient ∨ 0 < budget) :
    tooDeep rigor budget = false := by
  rcases room with rfl | room
  · rfl
  · simp [tooDeep, Nat.ne_of_gt room]

/-- A value that is neither a list nor an object is read by its first character. -/
theorem readWith_eq_readScalar {v : Value} (tokens : v.Tokens)
    (scalar : v.depth = 0) {fuel : Nat} (enough : 0 < fuel) (budget : Nat) :
    readWith rigor fuel budget (v.compact ++ rest) = readScalar rigor (v.compact ++ rest) := by
  obtain ⟨fuel, rfl⟩ := Nat.exists_eq_add_one.mpr enough
  obtain ⟨c, cs, chars, opening⟩ := compact_opening tokens
  have list : c ≠ '[' := by
    intro same
    obtain ⟨items, rfl⟩ := opening.list same
    simp [Value.depth] at scalar
  have record : c ≠ '{' := by
    intro same
    obtain ⟨members, rfl⟩ := opening.record same
    simp [Value.depth] at scalar
  rw [chars, List.cons_append, readWith, skipBlanks_cons opening.blank]
  simp only [list, record, if_false]

/-- **Step**: a scalar is read back. -/
theorem readWith_scalar {v : Value} (numbers : v.Numbers (·.Legible rigor)) (scalar : v.depth = 0)
    {fuel budget : Nat} (enough : v.compact.length < fuel) (closes : Closes rest) :
    readWith rigor fuel budget (v.compact ++ rest) = .ok (v, rest) := by
  rw [readWith_eq_readScalar (numbers.imp fun _ legible => legible.1) scalar (by omega),
    readScalar_compact numbers scalar closes]

/-- **Step**: a list is read back if its items are. -/
theorem readWith_list {items : List Value} (tokens : ∀ v ∈ items, v.Tokens)
    {fuel budget : Nat} (room : rigor = .lenient ∨ 0 < budget)
    (enough : (Value.list items).compact.length < fuel)
    (each : ∀ v ∈ items, ∀ rest, Closes rest →
      readWith rigor (fuel - 1) (budget - 1) (v.compact ++ rest) = .ok (v, rest)) :
    readWith rigor fuel budget ((Value.list items).compact ++ rest) = .ok (.list items, rest) := by
  obtain ⟨fuel, rfl⟩ := Nat.exists_eq_add_one.mpr (Nat.zero_lt_of_lt enough)
  rw [Nat.add_sub_cancel] at each
  have starts : ∀ v ∈ items, Starts ']' v.compact := fun v hv => compact_starts (tokens v hv)
  have few : items.length < fuel := by
    have part := length_le_awaited true starts
    simp only [compact_list, List.length_cons, List.length_append] at enough
    omega
  have read := itemsOf_ok items starts each few true rest
  rw [list_append, readWith, skipBlanks_cons (by decide)]
  simp only [if_true, tooDeep_eq_false room, Bool.false_eq_true, if_false, read]
  rfl

/-- **Step**: an object is read back if the values of its members are. -/
theorem readWith_record {members : List (String × Value)} {fuel budget : Nat}
    (room : rigor = .lenient ∨ 0 < budget)
    (enough : (Value.record members).compact.length < fuel)
    (each : ∀ m ∈ members, ∀ rest, Closes rest →
      readWith rigor (fuel - 1) (budget - 1) (m.2.compact ++ rest) = .ok (m.2, rest)) :
    readWith rigor fuel budget ((Value.record members).compact ++ rest) =
      .ok (.record members, rest) := by
  obtain ⟨fuel, rfl⟩ := Nat.exists_eq_add_one.mpr (Nat.zero_lt_of_lt enough)
  rw [Nat.add_sub_cancel] at each
  have few : members.length < fuel := by
    have part := length_le_awaited true fun m (_ : m ∈ members) => memberChars_starts m
    simp only [compact_record, List.length_cons, List.length_append] at enough
    omega
  have read : membersOf rigor (readWith rigor fuel (budget - 1)) fuel true _ = .ok (members, rest) :=
    membersOf_compact members each few true rest
  rw [record_append, readWith, skipBlanks_cons (by decide)]
  simp only [Char.reduceEq, if_true, tooDeep_eq_false room, Bool.false_eq_true, if_false, read]
  rfl

/-- **A value is read back from its compact text**: where it is skipped, or where its numbers have
    floats and it is not nested too deep. -/
theorem readWith_compact {v : Value} (numbers : v.Numbers (·.Legible rigor)) {fuel budget : Nat}
    (deep : rigor = .lenient ∨ v.depth ≤ budget) (enough : v.compact.length < fuel)
    (closes : Closes rest) : readWith rigor fuel budget (v.compact ++ rest) = .ok (v, rest) := by
  induction numbers generalizing fuel budget rest with
  | null => exact readWith_scalar .null rfl enough closes
  | truth b => exact readWith_scalar (.truth b) rfl enough closes
  | number h => exact readWith_scalar (.number h) rfl enough closes
  | text s => exact readWith_scalar (.text s) rfl enough closes
  | @list items h ih =>
    have room : rigor = .lenient ∨ 0 < budget := deep.imp_right fun deep => by
      rw [Value.depth] at deep
      omega
    refine readWith_list (fun v hv => (h v hv).imp fun _ legible => legible.1) room enough ?_
    intro v hv rest closes
    have depth := depth_lt_of_mem hv
    have length := length_lt_of_mem hv
    exact ih v hv (deep.imp_right fun deep => by omega) (by omega) closes
  | @record members h ih =>
    have room : rigor = .lenient ∨ 0 < budget := deep.imp_right fun deep => by
      rw [Value.depth] at deep
      omega
    refine readWith_record room enough ?_
    intro m hm rest closes
    have depth := depth_lt_of_mem_members hm
    have length := length_lt_of_mem_members hm
    exact ih m hm (deep.imp_right fun deep => by omega) (by omega) closes

/-- Skipping a value leaves what follows it, whatever its numbers and however deep it is nested. -/
theorem Value.skip_compact {v : Value} (tokens : v.Tokens) (closes : Closes rest) :
    Value.skip (v.compact ++ rest) = .ok rest := by
  have legible : v.Numbers (·.Legible .lenient) := tokens.imp fun _ token => ⟨token, .inl rfl⟩
  rw [Value.skip, readWith_compact legible (.inl rfl) _ closes]
  · rfl
  · rw [List.length_append]
    omega

/-- A wanted value is read back, if its numbers have floats and it is not nested too deep. -/
theorem Value.read_compact {v : Value} (numbers : v.Numbers (·.Legible .strict)) {depth : Nat}
    (deep : depth + v.depth ≤ depthLimit) (closes : Closes rest) :
    Value.read depth (v.compact ++ rest) = .ok (v, rest) := by
  refine readWith_compact numbers (.inr (by omega)) ?_ closes
  rw [List.length_append]
  omega

/-- What is read for a wanted value is that value, or both are nested. -/
theorem Value.read_kind {v w : Value} (tokens : v.Tokens) (closes : Closes rest)
    {depth : Nat} {rest' : List Char} (read : Value.read depth (v.compact ++ rest) = .ok (w, rest')) :
    w = v ∨ 0 < v.depth ∧ 0 < w.depth := by
  have scalar (numbers : v.Numbers (·.Legible .strict)) (flat : v.depth = 0) : w = v := by
    unfold Value.read at read
    rw [readWith_scalar numbers flat (by rw [List.length_append]; omega) closes] at read
    cases read
    rfl
  cases tokens with
  | null => exact .inl (scalar .null rfl)
  | truth b => exact .inl (scalar (.truth b) rfl)
  | text s => exact .inl (scalar (.text s) rfl)
  | number token =>
    unfold Value.read at read
    rw [readWith_eq_readScalar (.number token) rfl (by omega), Value.compact,
      readScalar_number token closes] at read
    split at read
    · cases read
      exact .inl rfl
    · cases read
  | list =>
    rw [list_append, Value.read, readWith, skipBlanks_cons (by decide)] at read
    simp only [if_true] at read
    split at read
    · cases read
    · obtain ⟨⟨items, _⟩, -, read⟩ := map_eq_ok.mp read
      cases read
      exact .inr ⟨by simp [Value.depth], by simp [Value.depth]⟩
  | record =>
    rw [record_append, Value.read, readWith, skipBlanks_cons (by decide)] at read
    simp only [Char.reduceEq, if_true, if_false] at read
    split at read
    · cases read
    · obtain ⟨⟨members, _⟩, -, read⟩ := map_eq_ok.mp read
      cases read
      exact .inr ⟨by simp [Value.depth], by simp [Value.depth]⟩

/-! ### Wanted types -/

/-- The string that a value is. -/
def Value.text? : Value → Option String
  | .text s => some s
  | _ => none

theorem Value.text?_eq_some {v : Value} {s : String} : v.text? = some s ↔ v = .text s := by
  cases v with
  | text t => simp [Value.text?]
  | null | truth | number | list | record => simp [Value.text?]

/-- The integer that a value is, if it lies in the given range. -/
def Value.integerIn? (low high : Int) : Value → Option Int
  | .number n => n.integerIn? low high
  | _ => none

/-- Where a string is wanted, a string is read and everything else refused. -/
theorem readString_yields {v : Value} (tokens : v.Tokens) :
    Yields (readString (v.compact ++ rest)) v.text? rest := by
  cases hv : v.text? with
  | some s =>
    obtain rfl := Value.text?_eq_some.mp hv
    show readString ((Value.text s).compact ++ rest) = .ok (s, rest)
    rw [Value.compact, quoted_append, readString, skipBlanks_cons (by decide)]
    exact readText_quoted s rest
  | none =>
    obtain ⟨c, cs, chars, opening⟩ := compact_opening tokens
    rw [chars, List.cons_append, readString, skipBlanks_cons opening.blank]
    split
    · next same =>
      obtain ⟨s, rfl⟩ := opening.text (List.cons.inj same).1
      simp [Value.text?] at hv
    · exact ⟨_, rfl⟩

/-- Where an integer of at most 64 bits is wanted, one is read and everything else refused. -/
theorem readInteger_yields {v : Value} (tokens : v.Tokens) {low high : Int}
    (hl : -9223372036854775808 ≤ low) (hh : high ≤ 9223372036854775808) (closes : Closes rest) :
    Yields (readInteger low high (v.compact ++ rest)) (v.integerIn? low high) rest := by
  have blank : skipBlanks (v.compact ++ rest) = v.compact ++ rest := by
    obtain ⟨c, cs, chars, opening⟩ := compact_opening tokens
    rw [chars]
    exact skipBlanks_cons opening.blank _
  have scalar {w : Value} (numbers : w.Numbers (·.Legible .strict)) (flat : w.depth = 0) :
      readScalar .strict (w.compact ++ rest) = .ok (w, rest) :=
    readScalar_compact numbers flat closes
  rw [readInteger, blank]
  cases tokens with
  | @number n token =>
    have read : readScalar .strict (n.chars ++ rest) = _ := readScalar_number token closes
    simp only [Value.compact, Value.integerIn?]
    cases value : n.integerIn? low high with
    | some i =>
      rw [read, if_pos (.inr (n.isRepresentable_of_integerIn? hl hh value))]
      simp only [value]
      rfl
    | none =>
      rw [read]
      split
      · next m _ read =>
        split at read
        · cases read
          simp only [value]
          exact ⟨_, rfl⟩
        · cases read
      · exact ⟨_, rfl⟩
  | null =>
    rw [scalar .null rfl]
    exact ⟨_, rfl⟩
  | truth b =>
    rw [scalar (.truth b) rfl]
    exact ⟨_, rfl⟩
  | text s =>
    rw [scalar (.text s) rfl]
    exact ⟨_, rfl⟩
  | list =>
    rw [list_append]
    exact ⟨_, rfl⟩
  | record =>
    rw [record_append]
    exact ⟨_, rfl⟩

end PolledConnection.Json
