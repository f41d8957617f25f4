import PolledConnection.Bytes
import PolledConnection.Json.Scan

/-! # Strings of JSON text

  A string is written between quotes. Quote, backslash and control characters
  are escaped, everything else stands for itself. Reading also accepts the
  other escapes of the format, among them pairs of surrogates for characters
  beyond the basic plane.
-/

namespace PolledConnection.Json

/-! ### Writing -/

/-- How one character is written inside quotes. -/
def escape (c : Char) : List Char :=
  if c = '"' then ['\\', '"']
  else if c = '\\' then ['\\', '\\']
  else if c = '\x08' then ['\\', 'b']
  else if c = '\x0c' then ['\\', 'f']
  else if c = '\n' then ['\\', 'n']
  else if c = '\r' then ['\\', 'r']
  else if c = '\t' then ['\\', 't']
  else if c.toNat < 0x20 then
    ['\\', 'u', '0', '0', Bytes.hexDigit (c.toNat / 16), Bytes.hexDigit (c.toNat % 16)]
  else [c]

/-- A string with its quotes. -/
def quoted (s : String) : List Char := '"' :: (s.toList.flatMap escape ++ ['"'])

/-! ### Reading -/

/-- The character that a one-letter escape stands for. -/
def unescape? (c : Char) : Option Char :=
  if c = '"' then some '"'
  else if c = '\\' then some '\\'
  else if c = '/' then some '/'
  else if c = 'b' then some '\x08'
  else if c = 'f' then some '\x0c'
  else if c = 'n' then some '\n'
  else if c = 'r' then some '\r'
  else if c = 't' then some '\t'
  else none

/-- The number that four hexadecimal digits stand for. -/
def codeUnit? (a b c d : Char) : Option Nat := do
  let a ← Bytes.hexValue? a
  let b ← Bytes.hexValue? b
  let c ← Bytes.hexValue? c
  let d ← Bytes.hexValue? d
  return 4096 * a + 256 * b + 16 * c + d

/-- Whether a code unit is the first of a surrogate pair. -/
def isLeading (n : Nat) : Bool := 0xD800 ≤ n && n ≤ 0xDBFF

/-- Whether a code unit is the second of a surrogate pair. -/
def isTrailing (n : Nat) : Bool := 0xDC00 ≤ n && n ≤ 0xDFFF

/-- The character that a surrogate pair stands for. -/
def pairChar (leading trailing : Nat) : Char :=
  Char.ofNat (0x10000 + 0x400 * (leading - 0xD800) + (trailing - 0xDC00))

/-- What is wrong with fewer than four characters where four digits belong: the text has ended
    if it has not even four bytes left. -/
def shortUnit (cs : List Char) : Flaw :=
  if cs.foldr (fun c n => c.utf8Size + n) 0 < 4 then .ended else .malformed

/-- What is wrong with a text too short to hold the second half of a surrogate pair. -/
def shortPair : List Char → Flaw
  | [] => .ended
  | [b] => if b = '\\' then .ended else .malformed
  | b :: u :: rest => if b = '\\' ∧ u = 'u' then shortUnit rest else .malformed

/-- Puts a character in front of what the rest of a string is read as. -/
def prepend (c : Char) : Reading (List Char) → Reading (List Char)
  | .error flaw => .error flaw
  | .ok (cs, rest) => .ok (c :: cs, rest)

/-- Reads a string from behind its opening quote, up to and including the closing one. -/
def readChars (rigor : Rigor) : List Char → Reading (List Char)
  | [] => .error .ended
  | c :: rest =>
    if c = '"' then .ok ([], rest)
    else if c = '\\' then
      match rest with
      | [] => .error .ended
      | e :: rest =>
        if e = 'u' then
          match rest with
          | h₁ :: h₂ :: h₃ :: h₄ :: rest =>
            match codeUnit? h₁ h₂ h₃ h₄ with
            | none => .error .malformed
            | some n =>
              if rigor = .lenient then prepend (Char.ofNat n) (readChars rigor rest)
              else if isTrailing n then .error .malformed
              else if isLeading n then
                match rest with
                | b :: u :: l₁ :: l₂ :: l₃ :: l₄ :: rest =>
                  if b = '\\' ∧ u = 'u' then
                    match codeUnit? l₁ l₂ l₃ l₄ with
                    | none => .error .malformed
                    | some m =>
                      if isTrailing m then prepend (pairChar n m) (readChars rigor rest)
                      else .error .malformed
                  else .error .malformed
                | short => .error (shortPair short)
              else prepend (Char.ofNat n) (readChars rigor rest)
          | short => .error (shortUnit short)
        else
          match unescape? e with
          | some d => prepend d (readChars rigor rest)
          | none => .error .malformed
    else if c.toNat < 0x20 then .error .malformed
    else prepend c (readChars rigor rest)

/-- Reads a string from behind its opening quote. -/
def readText (rigor : Rigor) (cs : List Char) : Except Flaw (String × List Char) := do
  let (chars, rest) ← readChars rigor cs
  return (String.ofList chars, rest)

end PolledConnection.Json
