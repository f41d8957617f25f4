import PolledConnection.Pieces

/-! # Lines of a report

  Names and option names may hold any character, so a text that quotes them
  may take several lines. Only a line feed ends a line. A line is shown
  without the blanks at its two ends, and one that is nothing but blanks is
  not shown.
-/

namespace PolledConnection.CommandLine

/-- The closed ranges of the characters that count as blank, ascending: those with the property
    White_Space. -/
def blankRanges : List (Nat × Nat) :=
  [(0x09, 0x0D), (0x20, 0x20), (0x85, 0x85), (0xA0, 0xA0), (0x1680, 0x1680), (0x2000, 0x200A),
    (0x2028, 0x2029), (0x202F, 0x202F), (0x205F, 0x205F), (0x3000, 0x3000)]

/-- Whether a character is blank. -/
def isBlank (c : Char) : Bool :=
  blankRanges.any fun (low, high) => low ≤ c.toNat && c.toNat ≤ high

/-- A text without the blanks at its two ends. -/
def trimmed (cs : List Char) : List Char :=
  ((cs.dropWhile isBlank).reverse.dropWhile isBlank).reverse

/-- The lines that a text is shown on. -/
def shownLines (text : String) : List String :=
  (pieces '\n' text.toList).filterMap fun row =>
    match trimmed row with
    | [] => none
    | line => some (String.ofList line)

end PolledConnection.CommandLine
