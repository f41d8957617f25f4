/-! # Pieces of a text

  The pieces of a text between the places where a separator stands. Joining
  them with the separator gives the text again (`intercalate_pieces`), and no
  piece holds a separator, so there is only one way to cut.
-/

namespace PolledConnection

/-- Puts a character in front of the first piece. -/
def extendHead (c : Char) : List (List Char) → List (List Char)
  | [] => [[c]]
  | p :: ps => (c :: p) :: ps

/-- The pieces of a text between separators; one more than there are separators. -/
def pieces (separator : Char) : List Char → List (List Char)
  | [] => [[]]
  | c :: cs =>
    if c = separator then [] :: pieces separator cs else extendHead c (pieces separator cs)

theorem pieces_ne_nil (separator : Char) (cs : List Char) : pieces separator cs ≠ [] := by
  cases cs with
  | nil => simp [pieces]
  | cons c cs =>
    simp only [pieces]
    split
    · simp
    · cases pieces separator cs <;> simp [extendHead]

/-- No piece holds a separator. -/
theorem not_mem_of_mem_pieces {separator : Char} {cs p : List Char}
    (h : p ∈ pieces separator cs) : separator ∉ p := by
  induction cs generalizing p with
  | nil =>
    simp only [pieces, List.mem_singleton] at h
    simp [h]
  | cons c cs ih =>
    simp only [pieces] at h
    split at h
    · rcases List.mem_cons.1 h with rfl | h
      · simp
      · exact ih h
    · rename_i hc
      cases hp : pieces separator cs with
      | nil => exact absurd hp (pieces_ne_nil separator cs)
      | cons q qs =>
        rw [hp] at h ih
        rcases List.mem_cons.1 h with rfl | h
        · simpa [Ne.symm hc] using ih (List.mem_cons_self ..)
        · exact ih (List.mem_cons_of_mem _ h)

/-- A text is its pieces with the separator between them. -/
theorem intercalate_pieces (separator : Char) (cs : List Char) :
    [separator].intercalate (pieces separator cs) = cs := by
  induction cs with
  | nil => simp [pieces]
  | cons c cs ih =>
    have hne := pieces_ne_nil separator cs
    simp only [pieces]
    split
    · rename_i h
      cases hp : pieces separator cs with
      | nil => exact absurd hp hne
      | cons p ps => rw [hp] at ih; simp [List.intercalate, h] at ih ⊢; exact ih
    · cases hp : pieces separator cs with
      | nil => exact absurd hp hne
      | cons p ps =>
        rw [hp] at ih
        cases ps <;> simp [extendHead, List.intercalate] at ih ⊢ <;> exact ih

end PolledConnection
