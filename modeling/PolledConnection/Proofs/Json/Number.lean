import PolledConnection.Proofs.Json.Sequence

/-! # Numbers are read back

  A number of the format is read as it was written, whatever its size, where
  nothing follows that could go on with it. One that is wanted must have a
  float besides (`read_chars`). Integers of 64 bits have one
  (`isRepresentable_of_integer?`).
-/

namespace PolledConnection.Json

namespace Number

variable {n : Number} {rigor : Rigor} {rest : List Char}

/-! ### The parts of a number -/

/-- The point and the digits behind it. -/
def fractionChars (n : Number) : List Char := if n.fraction = [] then [] else '.' :: n.fraction

/-- The exponent with its mark. -/
def exponentChars (n : Number) : List Char :=
  match n.exponent with
  | none => []
  | some e => e.mark :: (e.sign.toList ++ e.digits)

theorem chars_eq (n : Number) :
    n.chars =
      (if n.negative then ['-'] else []) ++ n.whole ++ n.fractionChars ++ n.exponentChars := by
  unfold chars fractionChars exponentChars
  cases n.exponent with
  | none | some => rfl

/-- What the parts of a number of the format are. -/
structure Token (n : Number) : Prop where
  nonempty : n.whole ≠ []
  whole : ∀ c ∈ n.whole, c.isDigit = true
  /-- No digit is behind a leading zero. -/
  leading : n.whole.head? = some '0' → n.whole.length = 1
  fraction : ∀ c ∈ n.fraction, c.isDigit = true
  exponent : ∀ e, n.exponent = some e → (e.mark = 'e' ∨ e.mark = 'E') ∧
    (e.sign = none ∨ e.sign = some '+' ∨ e.sign = some '-') ∧
    e.digits ≠ [] ∧ ∀ c ∈ e.digits, c.isDigit = true

theorem isToken_iff : n.isToken = true ↔ n.Token := by
  have leading (digits : List Char) : (digits.head? != some '0' || digits.length == 1) = true ↔
      (digits.head? = some '0' → digits.length = 1) := by
    simp [Classical.or_iff_not_imp_left]
  obtain ⟨negative, whole, fraction, exponent⟩ := n
  unfold isToken
  simp only [Bool.and_eq_true, leading, List.all_eq_true, Bool.not_eq_true',
    List.isEmpty_eq_false_iff]
  constructor
  · rintro ⟨⟨⟨⟨nonempty, digits⟩, zero⟩, behind⟩, exponent⟩
    refine ⟨nonempty, digits, zero, behind, ?_⟩
    rintro e rfl
    simpa [and_assoc, or_assoc] using exponent
  · rintro ⟨nonempty, digits, zero, behind, parts⟩
    refine ⟨⟨⟨⟨nonempty, digits⟩, zero⟩, behind⟩, ?_⟩
    cases exponent with
    | none => rfl
    | some e => simpa [and_assoc, or_assoc] using parts e rfl

/-- A number starts with a minus sign or a digit. -/
theorem Token.chars_start (token : n.Token) :
    ∃ c cs, n.chars = c :: cs ∧ (c = '-' ∨ c.isDigit = true) := by
  obtain ⟨d, ds, whole⟩ := List.exists_cons_of_ne_nil token.nonempty
  have digit : d.isDigit = true := token.whole d (by simp [whole])
  rw [chars_eq, whole]
  cases n.negative with
  | true => exact ⟨'-', _, rfl, .inl rfl⟩
  | false => exact ⟨d, _, rfl, .inr digit⟩

/-! ### Reading the parts -/

/-- Digits are taken up to the first character that is none. -/
theorem span_digits {digits : List Char} (hd : ∀ c ∈ digits, c.isDigit = true)
    (stop : ∀ c ∈ rest.head?, c.isDigit = false) :
    (digits ++ rest).takeWhile Char.isDigit = digits ∧
      (digits ++ rest).dropWhile Char.isDigit = rest := by
  rw [List.takeWhile_append_of_pos hd, List.dropWhile_append_of_pos hd]
  cases rest with
  | nil => simp
  | cons c cs => simp [stop c rfl]

theorem Token.readMinus_chars (token : n.Token) :
    readMinus (n.chars ++ rest) =
      (n.negative, n.whole ++ (n.fractionChars ++ (n.exponentChars ++ rest))) := by
  obtain ⟨d, ds, whole⟩ := List.exists_cons_of_ne_nil token.nonempty
  have minus : d ≠ '-' := by
    rintro rfl
    exact absurd (token.whole '-' (by simp [whole])) (by decide)
  cases negative : n.negative with
  | true => simp [chars_eq, negative, readMinus]
  | false => simp [chars_eq, negative, whole, readMinus, minus]

theorem Token.readWhole_digits (token : n.Token) (stop : ∀ c ∈ rest.head?, c.isDigit = false) :
    readWhole rigor (n.whole ++ rest) = .ok (n.whole, rest) := by
  obtain ⟨taken, dropped⟩ := span_digits token.whole stop
  rw [readWhole, taken, dropped]
  split
  · next empty => exact absurd empty token.nonempty
  · next long =>
    have short := token.leading (by simp [long])
    simp [long] at short
  · rfl

theorem Token.readFraction_chars (token : n.Token)
    (stop : ∀ c ∈ rest.head?, c.isDigit = false ∧ c ≠ '.') :
    readFraction rigor (n.fractionChars ++ rest) = .ok (n.fraction, rest) := by
  obtain ⟨taken, dropped⟩ := span_digits token.fraction (fun c hc => (stop c hc).1)
  unfold fractionChars
  by_cases empty : n.fraction = []
  · rw [if_pos empty, List.nil_append, readFraction.eq_def, empty]
    split
    · exact absurd rfl (stop '.' rfl).2
    · rfl
  · rw [if_neg empty, List.cons_append, readFraction, taken, dropped]
    split
    · next none => exact absurd none empty
    · rfl

theorem readSign_append {sign : Option Char} (hs : sign = none ∨ sign = some '+' ∨ sign = some '-')
    {digits : List Char} (hd : ∀ c ∈ digits, c.isDigit = true) (nonempty : digits ≠ []) :
    readSign (sign.toList ++ (digits ++ rest)) = (sign, digits ++ rest) := by
  obtain ⟨d, ds, rfl⟩ := List.exists_cons_of_ne_nil nonempty
  have digit : d ≠ '+' ∧ d ≠ '-' := by
    constructor
    all_goals
      rintro rfl
      exact absurd (hd _ (List.mem_cons_self ..)) (by decide)
  rcases hs with rfl | rfl | rfl
  · simp [readSign, digit]
  · simp [readSign]
  · simp [readSign]

theorem Token.readExponent_chars (token : n.Token)
    (stop : ∀ c ∈ rest.head?, c.isDigit = false ∧ c ≠ 'e' ∧ c ≠ 'E') :
    readExponent rigor (n.exponentChars ++ rest) = .ok (n.exponent, rest) := by
  unfold exponentChars
  cases he : n.exponent with
  | none =>
    cases rest with
    | nil => rfl
    | cons c cs =>
      obtain ⟨-, small, large⟩ := stop c rfl
      simp [readExponent, small, large]
  | some e =>
    obtain ⟨mark, sign, nonempty, digits⟩ := token.exponent e he
    obtain ⟨taken, dropped⟩ := span_digits digits (fun c hc => (stop c hc).1)
    simp only [List.cons_append, List.append_assoc]
    rw [readExponent]
    simp only [mark, if_true, readSign_append sign digits nonempty, taken, dropped]

/-- A number is read back, if it is skipped or has a float. -/
theorem Token.read_chars (token : n.Token) (closes : Closes rest) :
    read rigor (n.chars ++ rest) =
      if rigor = .lenient ∨ n.isRepresentable = true then .ok (n, rest) else .error .malformed := by
  have behind : ∀ c ∈ rest.head?, c.isDigit = false ∧ c ≠ '.' ∧ c ≠ 'e' ∧ c ≠ 'E' := by
    intro c hc
    rcases closes c hc with rfl | rfl | rfl
    all_goals decide
  -- Each part is stopped by the first character of the next one that is there.
  have behindFraction : ∀ c ∈ (n.exponentChars ++ rest).head?, c.isDigit = false ∧ c ≠ '.' := by
    unfold exponentChars
    cases he : n.exponent with
    | none => exact fun c hc => ⟨(behind c hc).1, (behind c hc).2.1⟩
    | some e =>
      rintro c hc
      obtain rfl : e.mark = c := by simpa using hc
      rcases (token.exponent e he).1 with mark | mark
      all_goals simp [mark]
  have behindWhole : ∀ c ∈ (n.fractionChars ++ (n.exponentChars ++ rest)).head?,
      c.isDigit = false := by
    unfold fractionChars
    by_cases empty : n.fraction = []
    · rw [if_pos empty]
      exact fun c hc => (behindFraction c hc).1
    · rw [if_neg empty]
      rintro c hc
      obtain rfl : '.' = c := by simpa using hc
      decide
  have exponent : readExponent rigor (n.exponentChars ++ rest) = .ok (n.exponent, rest) :=
    token.readExponent_chars fun c hc => ⟨(behind c hc).1, (behind c hc).2.2⟩
  simp only [read, token.readMinus_chars, token.readWhole_digits behindWhole,
    token.readFraction_chars behindFraction, exponent, ok_bind]
  rfl

/-! ### Integers -/

/-- An integer has neither fraction nor exponent. Its digits say how large it is, and its sign whether
    it is negative, so minus zero is none. -/
theorem integer?_eq_some {i : Int} :
    n.integer? = some i ↔ n.fraction = [] ∧ n.exponent = none ∧ natOf n.whole = i.natAbs ∧
      (n.negative = true ↔ i < 0) := by
  unfold integer?
  by_cases plain : n.fraction = [] ∧ n.exponent = none
  · simp only [plain, and_self, if_true, true_and]
    cases n.negative with
    | false =>
      simp only [Bool.false_eq_true, if_false, Option.some.injEq, false_iff]
      omega
    | true =>
      simp only [if_true, true_iff]
      split
      · simp only [reduceCtorEq, false_iff]
        omega
      · simp only [Option.some.injEq]
        omega
  · simp only [plain, if_false, reduceCtorEq, false_iff]
    exact fun h => plain ⟨h.1, h.2.1⟩

/-- Digits only make a number larger. -/
theorem le_foldl_digits (cs : List Char) (s : Nat) :
    s ≤ cs.foldl (fun n c => 10 * n + digitValue c) s := by
  induction cs generalizing s with
  | nil => exact Nat.le_refl s
  | cons c cs ih =>
    calc s ≤ 10 * s + digitValue c := by omega
      _ ≤ _ := ih _

/-- Digits that make a small number are gathered without loss. -/
theorem gatherWhole_eq (cs : List Char) (s : Nat)
    (h : cs.foldl (fun n c => 10 * n + digitValue c) s ≤ significandLimit) :
    gatherWhole cs s = (cs.foldl (fun n c => 10 * n + digitValue c) s, 0) := by
  induction cs generalizing s with
  | nil => rfl
  | cons c cs ih =>
    have fits : 10 * s + digitValue c ≤ significandLimit :=
      Nat.le_trans (le_foldl_digits cs _) h
    rw [gatherWhole, if_pos fits, ih _ h]
    rfl

/-- Rounding at most doubles a number. -/
theorem round53_le (k : Nat) (h : k ≠ 0) : round53 k ≤ 2 * k := by
  have unit : 1 <<< (Nat.log2 k + 1 - 53) ≤ k := by
    rw [Nat.shiftLeft_eq, Nat.one_mul]
    calc 2 ^ (Nat.log2 k + 1 - 53) ≤ 2 ^ Nat.log2 k := Nat.pow_le_pow_right (by decide) (by omega)
      _ ≤ k := Nat.log2_self_le h
  have part : k / (1 <<< (Nat.log2 k + 1 - 53)) * (1 <<< (Nat.log2 k + 1 - 53)) ≤ k :=
    Nat.div_mul_le_self ..
  unfold round53
  dsimp only
  split
  · rw [Nat.add_mul, Nat.one_mul]
    omega
  · omega

/-- An integer of 64 bits has a float. The bound is the 63rd power of 2. -/
theorem isRepresentable_of_integer? {i : Int} (h : n.integer? = some i)
    (small : i.natAbs ≤ 9223372036854775808) : n.isRepresentable = true := by
  obtain ⟨fraction, exponent, value, -⟩ := integer?_eq_some.mp h
  have gathered : gatherWhole n.whole 0 = (i.natAbs, 0) := by
    rw [← value]
    refine gatherWhole_eq n.whole 0 ?_
    show natOf n.whole ≤ significandLimit
    rw [value]
    exact Nat.le_trans small (by decide)
  have written : n.writtenExponent = 0 := by simp [writtenExponent, exponent]
  have rounded : round53 i.natAbs * round53 (Nat.pow 10 0) < floatLimit := by
    have one : round53 (Nat.pow 10 0) = 1 := by decide
    have limit : 18446744073709551616 < floatLimit := by decide
    rw [one, Nat.mul_one]
    by_cases zero : i.natAbs = 0
    · rw [zero]
      decide
    · have doubled := round53_le i.natAbs zero
      omega
  unfold isRepresentable
  simp only [gathered, fraction, gatherFraction, written, Bool.or_eq_true, Bool.and_eq_true,
    decide_eq_true_eq]
  exact .inr ⟨by decide, rounded⟩

theorem integerIn?_eq_some {low high i : Int} :
    n.integerIn? low high = some i ↔ n.integer? = some i ∧ low ≤ i ∧ i ≤ high := by
  simp [integerIn?, Option.filter_eq_some_iff]

theorem isRepresentable_of_integerIn? {low high i : Int} (hl : -9223372036854775808 ≤ low)
    (hh : high ≤ 9223372036854775808) (h : n.integerIn? low high = some i) :
    n.isRepresentable = true := by
  obtain ⟨integer, above, below⟩ := integerIn?_eq_some.mp h
  exact isRepresentable_of_integer? integer (by omega)

/-- Only zero is written with a leading zero. -/
theorem length_of_leading_zero (k : Nat) (h : (Nat.toDigits 10 k).head? = some '0') :
    (Nat.toDigits 10 k).length = 1 := by
  have head (k : Nat) (positive : 0 < k) : (Nat.toDigits 10 k).head? ≠ some '0' := by
    induction k using Nat.strongRecOn with
    | ind k ih =>
      rw [Nat.toDigits_eq_if (by decide)]
      by_cases digit : k < 10
      · simp only [digit, if_true, List.head?_cons, ne_eq, Option.some.injEq, Nat.digitChar_eq_zero]
        omega
      · have leading := ih (k / 10) (by omega) (by omega)
        have nonempty : Nat.toDigits 10 (k / 10) ≠ [] := Nat.toDigits_ne_nil
        obtain ⟨d, ds, digits⟩ := List.exists_cons_of_ne_nil nonempty
        rw [if_neg digit, digits]
        rw [digits] at leading
        exact leading
  have zero : k = 0 := Nat.eq_zero_of_not_pos fun positive => head k positive h
  rw [zero]
  rfl

/-- A written integer follows the format. -/
theorem token_ofInt (i : Int) : (ofInt i).Token where
  nonempty := Nat.toDigits_ne_nil
  whole c hc := Nat.isDigit_of_mem_toDigits (by decide) (by decide) hc
  leading := by
    show (Nat.toDigits 10 i.natAbs).head? = some '0' → (Nat.toDigits 10 i.natAbs).length = 1
    exact length_of_leading_zero i.natAbs
  fraction := by simp [ofInt]
  exponent := by simp [ofInt]

/-- A written integer is that integer. -/
theorem integer?_ofInt (i : Int) : (ofInt i).integer? = some i := by
  have value : natOf (Nat.toDigits 10 i.natAbs) = i.natAbs := Nat.ofDigitChars_ten_toDigits
  exact integer?_eq_some.mpr ⟨rfl, rfl, value, decide_eq_true_iff⟩

end Number

end PolledConnection.Json
