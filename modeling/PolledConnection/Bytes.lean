/-! # Bytes

  Messages and received chunks are plain lists of bytes. Their written form is
  two lower case hexadecimal digits a byte, without any separator.

  Sizes and ranges that depend on a count from outside are computed with their
  checks (`minus?`, `slice?`).
-/

namespace PolledConnection

/-- A byte string. -/
abbrev Bytes := List UInt8

/-! ### Checked arithmetic -/

/-- The difference of two sizes; none below zero. -/
def minus? (a b : Nat) : Option Nat := if b ≤ a then some (a - b) else none

/-- The bytes from one index up to another; none if that leaves the bytes. -/
def slice? (bytes : Bytes) (start stop : Nat) : Option Bytes :=
  if start ≤ stop ∧ stop ≤ bytes.length then some ((bytes.take stop).drop start) else none

theorem minus?_of_le {a b : Nat} (h : b ≤ a) : minus? a b = some (a - b) := if_pos h

theorem slice?_of_le {bytes : Bytes} {start stop : Nat} (lower : start ≤ stop)
    (upper : stop ≤ bytes.length) : slice? bytes start stop = some ((bytes.take stop).drop start) :=
  if_pos ⟨lower, upper⟩

/-! ### Hexadecimal -/

namespace Bytes

/-- The bytes of a text in UTF-8. -/
def ofText (text : String) : Bytes := text.toUTF8.toList

/-- The hexadecimal digit of a value below sixteen, in lower case. -/
def hexDigit (n : Nat) : Char :=
  if n < 10 then Char.ofNat ('0'.toNat + n) else Char.ofNat ('a'.toNat + (n - 10))

/-- The value of a hexadecimal digit, in either case. -/
def hexValue? (c : Char) : Option Nat :=
  if '0' ≤ c ∧ c ≤ '9' then some (c.toNat - '0'.toNat)
  else if 'a' ≤ c ∧ c ≤ 'f' then some (c.toNat - 'a'.toNat + 10)
  else if 'A' ≤ c ∧ c ≤ 'F' then some (c.toNat - 'A'.toNat + 10)
  else none

/-- The two digits of one byte, high half first. -/
def hexPair (b : UInt8) : List Char :=
  [hexDigit (b.toNat / 16), hexDigit (b.toNat % 16)]

/-- A byte string in hexadecimal. -/
def hex (bs : Bytes) : String := String.ofList (bs.flatMap hexPair)

/-- Reads pairs of hexadecimal digits; anything else is refused. -/
def ofHexDigits? : List Char → Option Bytes
  | [] => some []
  | [_] => none
  | high :: low :: rest => do
    let h ← hexValue? high
    let l ← hexValue? low
    let bs ← ofHexDigits? rest
    return UInt8.ofNat (16 * h + l) :: bs

/-- Reads a byte string written in hexadecimal. -/
def ofHex? (text : String) : Option Bytes := ofHexDigits? text.toList

end Bytes

end PolledConnection
