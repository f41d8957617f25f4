import PolledConnection.Json.Value

/-! # Readings, and the items of a sequence

  A reader of a part of a text is specified by what it makes of that part,
  whatever may follow it (`Closes`): it comes to a value and leaves just what
  follows, or it refuses the part (`Yields`). Specifications compose along
  the sequencing of readers (`Yields.bind`), and a reader of an item gives
  one of a comma separated list of them (`itemsOf_yields`).
-/

namespace PolledConnection.Json

variable {α β : Type}

/-! ### Readings -/

@[simp] theorem ok_bind {ε : Type} (a : α) (f : α → Except ε β) : (Except.ok a >>= f) = f a := rfl

theorem map_eq_ok {ε : Type} {r : Except ε α} {f : α → β} {b : β} :
    r.map f = .ok b ↔ ∃ a, r = .ok a ∧ f a = b := by
  cases r with
  | error e => simp [Except.map]
  | ok a => simp [Except.map]

/-- What may follow a value in a text without blanks: nothing, the next item, or the end of a list or
    an object. -/
def Closes (rest : List Char) : Prop := ∀ c ∈ rest.head?, c = ',' ∨ c = ']' ∨ c = '}'

/-- A reading comes to a value and leaves the given rest of the text; without a value it is refused. -/
def Yields (r : Reading α) : Option α → List Char → Prop
  | some a, rest => r = .ok (a, rest)
  | none, _ => ∃ flaw, r = .error flaw

section
variable {r : Reading α} {a : Option α} {rest rest' : List Char}

theorem Yields.ok {x : α} (h : Yields r (some x) rest) : r = .ok (x, rest) := h

/-- What follows a reading that yields is a reading of the rest. -/
theorem Yields.bind {f : α × List Char → Reading β} {g : α → Option β} (h : Yields r a rest)
    (next : ∀ x, a = some x → Yields (f (x, rest)) (g x) rest') :
    Yields (Except.bind r f) (a.bind g) rest' := by
  cases a with
  | none =>
    obtain ⟨flaw, refused⟩ := h
    exact ⟨flaw, by rw [refused]; rfl⟩
  | some x =>
    rw [h.ok]
    exact next x rfl

/-- A reading is refused if whatever follows it is. -/
theorem Yields.bind_none {f : α × List Char → Reading β} (h : Yields r a rest)
    (next : ∀ x, ∃ flaw, f (x, rest) = .error flaw) : ∃ flaw, Except.bind r f = .error flaw := by
  have refused : Yields (Except.bind r f) (a.bind fun _ => none) rest := h.bind fun x _ => next x
  rwa [Option.bind_fun_none] at refused

end

/-! ### Items -/

theorem skipBlanks_cons {c : Char} (blank : isBlank c = false) (cs : List Char) :
    skipBlanks (c :: cs) = c :: cs := by
  simp [skipBlanks, blank]

/-- The text of an item that can be told from blanks and from the end of its sequence. -/
def Starts (close : Char) (text : List Char) : Prop :=
  ∃ c cs, text = c :: cs ∧ isBlank c = false ∧ c ≠ close

/-- The items still to come, each with a comma in front unless it is the first. -/
def awaited (first : Bool) (texts : List (List Char)) : List Char :=
  if first then commaSeparated texts else texts.flatMap (',' :: ·)

theorem commaSeparated_cons (t : List Char) (ts : List (List Char)) :
    commaSeparated (t :: ts) = t ++ awaited false ts := by
  induction ts generalizing t with
  | nil => simp [commaSeparated, awaited]
  | cons u us ih =>
    rw [commaSeparated, ih u]
    · simp [awaited]
    · simp

@[simp] theorem awaited_nil (first : Bool) : awaited first [] = [] := by
  cases first with
  | true | false => rfl

section
variable {close : Char} {first : Bool} {text rest : List Char} {texts : List (List Char)}

/-- What follows an item. -/
theorem closes_awaited (hc : close = ']' ∨ close = '}') (texts : List (List Char))
    (rest : List Char) : Closes (awaited false texts ++ close :: rest) := by
  cases texts with
  | nil => rcases hc with rfl | rfl <;> simp [Closes]
  | cons t ts => simp [Closes, awaited]

/-- Each item that is still to come takes some room. -/
theorem length_le_awaited {text : β → List Char} {bs : List β} (first : Bool)
    (h : ∀ b ∈ bs, Starts close (text b)) : bs.length ≤ (awaited first (bs.map text)).length := by
  have behind (bs : List β) : bs.length ≤ (awaited false (bs.map text)).length := by
    induction bs with
    | nil => simp
    | cons b bs ih =>
      simp only [awaited, Bool.false_eq_true, if_false, List.map_cons, List.flatMap_cons,
        List.length_cons, List.length_append] at ih ⊢
      omega
  cases first with
  | false => exact behind bs
  | true =>
    cases bs with
    | nil => simp
    | cons b bs =>
      obtain ⟨c, cs, chars, -⟩ := h b (by simp)
      have more := behind bs
      simp only [awaited, if_true, List.map_cons, commaSeparated_cons, chars, List.length_cons,
        List.length_append] at more ⊢
      omega

/-- An item is no longer than all of them. -/
theorem length_le_of_mem (h : text ∈ texts) : text.length ≤ (awaited true texts).length := by
  have behind (ts : List (List Char)) (h : text ∈ ts) : text.length ≤ (awaited false ts).length := by
    simp only [awaited, Bool.false_eq_true, if_false]
    induction ts with
    | nil => simp at h
    | cons t ts ih =>
      simp only [List.flatMap_cons, List.length_append, List.length_cons]
      rcases List.mem_cons.mp h with rfl | h
      · omega
      · have below := ih h
        omega
  cases texts with
  | nil => simp at h
  | cons t ts =>
    show text.length ≤ (commaSeparated (t :: ts)).length
    rw [commaSeparated_cons, List.length_append]
    rcases List.mem_cons.mp h with rfl | h
    · omega
    · have below := behind ts h
      omega

theorem nextItem_item (hc : close = ']' ∨ close = '}') (start : Starts close text) (first : Bool)
    (texts : List (List Char)) (rest : List Char) :
    nextItem close first (awaited first (text :: texts) ++ rest) =
      .ok (.inr (text ++ (awaited false texts ++ rest))) := by
  obtain ⟨c, cs, rfl, blank, other⟩ := start
  cases first with
  | true => simp [awaited, commaSeparated_cons, nextItem, skipBlanks_cons blank, other]
  | false =>
    have comma : ',' ≠ close := by rcases hc with rfl | rfl <;> decide
    have separator : isBlank ',' = false := by decide
    simp [awaited, nextItem, skipBlanks_cons separator, skipBlanks_cons blank, other, comma]

theorem nextItem_end (hc : close = ']' ∨ close = '}') :
    nextItem close first (awaited first [] ++ close :: rest) = .ok (.inl rest) := by
  rcases hc with rfl | rfl
  all_goals simp [nextItem, skipBlanks, isBlank]

end

/-- A list is read item by item, and refused if one of the items is. -/
theorem itemsOf_yields {item : List Char → Reading α} {text : β → List Char} {value : β → Option α}
    (bs : List β) (starts : ∀ b ∈ bs, Starts ']' (text b))
    (items : ∀ b ∈ bs, ∀ rest, Closes rest → Yields (item (text b ++ rest)) (value b) rest)
    {fuel : Nat} (enough : bs.length < fuel) (first : Bool) (rest : List Char) :
    Yields (itemsOf item fuel first (awaited first (bs.map text) ++ ']' :: rest)) (bs.mapM value)
      rest := by
  -- Only the first item has no comma in front, so the induction is over both kinds of rest.
  induction bs generalizing fuel first with
  | nil =>
    obtain ⟨fuel, rfl⟩ := Nat.exists_eq_add_one.mpr (Nat.zero_lt_of_lt enough)
    rw [itemsOf, List.map_nil, nextItem_end (.inl rfl)]
    rfl
  | cons b bs ih =>
    obtain ⟨fuel, rfl⟩ := Nat.exists_eq_add_one.mpr (Nat.zero_lt_of_lt enough)
    simp only [List.mem_cons, forall_eq_or_imp, List.length_cons] at starts items enough
    rw [itemsOf, List.map_cons, nextItem_item (.inl rfl) starts.1 first _ _, ok_bind, List.mapM_cons]
    refine (items.1 _ (closes_awaited (.inl rfl) _ _)).bind fun x _ => ?_
    refine (ih starts.2 items.2 (by omega) false).bind fun xs _ => ?_
    rfl

/-- A list of which every item is read is read. -/
theorem itemsOf_ok {item : List Char → Reading α} {text : α → List Char} (as : List α)
    (starts : ∀ a ∈ as, Starts ']' (text a))
    (items : ∀ a ∈ as, ∀ rest, Closes rest → item (text a ++ rest) = .ok (a, rest))
    {fuel : Nat} (enough : as.length < fuel) (first : Bool) (rest : List Char) :
    itemsOf item fuel first (awaited first (as.map text) ++ ']' :: rest) = .ok (as, rest) := by
  have each : ∀ a ∈ as, ∀ rest, Closes rest → Yields (item (text a ++ rest)) (some a) rest := items
  have yields := itemsOf_yields as starts each enough first rest
  have all : as.mapM some = some as := by
    simpa using List.mapM_pure (m := Option) (l := as) (f := id)
  rw [all] at yields
  exact yields.ok

end PolledConnection.Json
