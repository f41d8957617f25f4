import PolledConnection.Json.Text

/-! # Strings are read back

  Whatever characters a string has, its quoted form is read as that string.
-/

namespace PolledConnection.Json

variable {rigor : Rigor}

@[simp] theorem prepend_ok (c : Char) (cs rest : List Char) :
    prepend c (.ok (cs, rest)) = .ok (c :: cs, rest) := rfl

/-- A half byte comes back from its digit. -/
theorem hexValue?_hexDigit : ∀ n < 16, Bytes.hexValue? (Bytes.hexDigit n) = some n := by
  decide

/-- A control character comes back from its four digits. -/
theorem codeUnit?_hexDigits (n : Nat) (h : n < 0x20) :
    codeUnit? '0' '0' (Bytes.hexDigit (n / 16)) (Bytes.hexDigit (n % 16)) = some n := by
  have zero : Bytes.hexValue? '0' = some 0 := by decide
  have high := hexValue?_hexDigit (n / 16) (by omega)
  have low := hexValue?_hexDigit (n % 16) (by omega)
  simp only [codeUnit?, zero, high, low, Option.bind_eq_bind, Option.bind_some, Option.pure_def,
    Option.some.injEq]
  omega

theorem readChars_end (rest : List Char) : readChars rigor ('"' :: rest) = .ok ([], rest) := by
  rw [readChars.eq_def]
  rfl

/-- A character with an escape of one letter. -/
theorem readChars_named {e c : Char} (h : unescape? e = some c) (rest : List Char) :
    readChars rigor ('\\' :: e :: rest) = prepend c (readChars rigor rest) := by
  have named : e ≠ 'u' := by
    rintro rfl
    simp [unescape?] at h
  rw [readChars.eq_def]
  simp only [Char.reduceEq, if_true, if_false, named, h]

/-- A control character that has none. -/
theorem readChars_control {c : Char} (h : c.toNat < 0x20) (rest : List Char) :
    readChars rigor ('\\' :: 'u' :: '0' :: '0' :: Bytes.hexDigit (c.toNat / 16) ::
      Bytes.hexDigit (c.toNat % 16) :: rest) = prepend c (readChars rigor rest) := by
  have unit := codeUnit?_hexDigits c.toNat h
  -- No control character is half of a surrogate pair.
  have leading : isLeading c.toNat = false := by
    simp only [isLeading, Bool.and_eq_false_imp, decide_eq_true_eq, decide_eq_false_iff_not]
    omega
  have trailing : isTrailing c.toNat = false := by
    simp only [isTrailing, Bool.and_eq_false_imp, decide_eq_true_eq, decide_eq_false_iff_not]
    omega
  rw [readChars.eq_def]
  simp [unit, leading, trailing, Char.ofNat_toNat]

/-- A character that stands for itself. -/
theorem readChars_plain {c : Char} (quote : c ≠ '"') (backslash : c ≠ '\\')
    (printable : ¬ c.toNat < 0x20) (rest : List Char) :
    readChars rigor (c :: rest) = prepend c (readChars rigor rest) := by
  rw [readChars.eq_def]
  simp only [quote, backslash, printable, if_false]

/-- One written character is read back. -/
theorem readChars_escape (c : Char) (rest : List Char) :
    readChars rigor (escape c ++ rest) = prepend c (readChars rigor rest) := by
  by_cases named : c ∈ ['"', '\\', '\x08', '\x0c', '\n', '\r', '\t']
  · simp only [List.mem_cons, List.not_mem_nil, or_false] at named
    rcases named with rfl | rfl | rfl | rfl | rfl | rfl | rfl
    all_goals exact readChars_named (by decide) rest
  · simp only [List.mem_cons, List.not_mem_nil, or_false, not_or] at named
    obtain ⟨quote, backslash, b, f, n, r, t⟩ := named
    by_cases control : c.toNat < 0x20
    · simp only [escape, quote, backslash, b, f, n, r, t, control, if_true, if_false]
      exact readChars_control control rest
    · simp only [escape, quote, backslash, b, f, n, r, t, control, if_false]
      exact readChars_plain quote backslash control rest

/-- Written characters are read up to the closing quote. -/
theorem readChars_escaped (cs rest : List Char) :
    readChars rigor (cs.flatMap escape ++ '"' :: rest) = .ok (cs, rest) := by
  induction cs with
  | nil => exact readChars_end rest
  | cons c cs ih => rw [List.flatMap_cons, List.append_assoc, readChars_escape, ih, prepend_ok]

/-- A quoted string is read back from behind its opening quote. -/
theorem readText_quoted (s : String) (rest : List Char) :
    readText rigor (s.toList.flatMap escape ++ '"' :: rest) = .ok (s, rest) := by
  simp only [readText, readChars_escaped]
  show Except.ok (String.ofList s.toList, rest) = .ok (s, rest)
  rw [String.ofList_toList]

theorem quoted_append (s : String) (rest : List Char) :
    quoted s ++ rest = '"' :: (s.toList.flatMap escape ++ '"' :: rest) := by
  simp [quoted]

end PolledConnection.Json
