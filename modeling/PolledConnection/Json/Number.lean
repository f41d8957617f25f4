import PolledConnection.Json.Scan

/-! # Numbers of JSON text

  A number is kept as it is written: sign, digits, fraction, exponent. Its
  value matters in two ways only. A number without fraction and exponent is
  an integer (`integer?`), except that minus zero is not. And a number that
  is too large for a double precision float is no number at all
  (`isRepresentable`).
-/

namespace PolledConnection.Json

/-- The exponent of a number, as written. -/
structure Exponent where
  /-- The letter that starts it. -/
  mark : Char
  /-- Its sign, if written. -/
  sign : Option Char
  /-- Its digits. -/
  digits : List Char
deriving DecidableEq, Repr

/-- A number, as written. -/
structure Number where
  /-- Whether it starts with a minus sign. -/
  negative : Bool
  /-- The digits before the point. -/
  whole : List Char
  /-- The digits behind the point; none when there is no point. -/
  fraction : List Char
  /-- The exponent, if any. -/
  exponent : Option Exponent
deriving DecidableEq, Repr

namespace Number

/-! ### Form -/

/-- The characters of a number. -/
def chars (n : Number) : List Char :=
  (if n.negative then ['-'] else []) ++ n.whole ++
    (if n.fraction = [] then [] else '.' :: n.fraction) ++
    match n.exponent with
    | none => []
    | some e => e.mark :: (e.sign.toList ++ e.digits)

/-- Whether the parts make a number of the format: digits where digits belong, at least one
    before the point and in an exponent, and no further digit behind a leading zero. -/
def isToken (n : Number) : Bool :=
  !n.whole.isEmpty && n.whole.all Char.isDigit && (n.whole.head? != some '0' || n.whole.length == 1) &&
    n.fraction.all Char.isDigit &&
    match n.exponent with
    | none => true
    | some e =>
      (e.mark == 'e' || e.mark == 'E') &&
        (e.sign == none || e.sign == some '+' || e.sign == some '-') &&
        !e.digits.isEmpty && e.digits.all Char.isDigit

/-- An integer in its shortest form. -/
def ofInt (i : Int) : Number := ⟨i < 0, Nat.toDigits 10 i.natAbs, [], none⟩

/-! ### Value -/

/-- The value of one decimal digit. -/
def digitValue (c : Char) : Nat := c.toNat - '0'.toNat

/-- The value of decimal digits. -/
def natOf (digits : List Char) : Nat := digits.foldl (fun n c => 10 * n + digitValue c) 0

/-- The value of a number without fraction and exponent. Minus zero is no integer. -/
def integer? (n : Number) : Option Int :=
  if n.fraction = [] ∧ n.exponent = none then
    let value := natOf n.whole
    if n.negative then (if value = 0 then none else some (-(value : Int))) else some value
  else none

/-- The integer, if it lies in the given range. -/
def integerIn? (n : Number) (low high : Int) : Option Int :=
  n.integer?.filter fun i => low ≤ i && i ≤ high

/-- The largest significand that is gathered from the digits. -/
def significandLimit : Nat := UInt64.size - 1

/-- Gathers digits before the point. What no longer fits only raises the exponent. -/
def gatherWhole : List Char → Nat → Nat × Nat
  | [], s => (s, 0)
  | c :: cs, s =>
    if 10 * s + digitValue c ≤ significandLimit then gatherWhole cs (10 * s + digitValue c)
    else (s, cs.length + 1)

/-- Gathers digits behind the point, each of which lowers the exponent, up to the first that no
    longer fits. -/
def gatherFraction : List Char → Nat → Nat × Nat
  | [], s => (s, 0)
  | c :: cs, s =>
    if 10 * s + digitValue c ≤ significandLimit then
      let (t, taken) := gatherFraction cs (10 * s + digitValue c)
      (t, taken + 1)
    else (s, 0)

/-- The nearest number with at most 53 significant bits, ties to the even one. -/
def round53 (n : Nat) : Nat :=
  let excess := Nat.log2 n + 1 - 53
  let unit := 1 <<< excess
  let quotient := n / unit
  let remainder := n % unit
  let up := 2 * remainder > unit || (2 * remainder == unit && quotient % 2 == 1)
  (if up then quotient + 1 else quotient) * unit

/-- From here on a product is rounded beyond the largest double precision float. -/
def floatLimit : Nat := (1 <<< 1024) - (1 <<< 970)

/-- The written exponent. -/
def writtenExponent (n : Number) : Int :=
  match n.exponent with
  | none => 0
  | some e => if e.sign = some '-' then -(natOf e.digits : Int) else natOf e.digits

/-- Whether a number has a double precision float: its significand and its power of ten are
    rounded first, then their product. -/
def isRepresentable (n : Number) : Bool :=
  let (s, raised) := gatherWhole n.whole 0
  let (s, lowered) := gatherFraction n.fraction s
  let power := (raised : Int) - lowered + n.writtenExponent
  s == 0 || power < 0 || (power ≤ 308 && round53 s * round53 (Nat.pow 10 power.toNat) < floatLimit)

/-! ### Reading -/

/-- What a text that ends inside a number lacks. A skipped number is refused like any other
    text that is no number. -/
def atEnd (rigor : Rigor) : List Char → Flaw
  | [] => match rigor with
    | .strict => .ended
    | .lenient => .malformed
  | _ :: _ => .malformed

/-- Reads a point and the digits behind it, if there is a point. -/
def readFraction (rigor : Rigor) (cs : List Char) : Reading (List Char) :=
  match cs with
  | '.' :: rest =>
    match rest.takeWhile Char.isDigit with
    | [] => .error (atEnd rigor rest)
    | digits => .ok (digits, rest.dropWhile Char.isDigit)
  | _ => .ok ([], cs)

/-- Reads the sign of an exponent, if there is one. -/
def readSign : List Char → Option Char × List Char
  | [] => (none, [])
  | c :: rest => if c = '+' ∨ c = '-' then (some c, rest) else (none, c :: rest)

/-- Reads an exponent, if there is one. -/
def readExponent (rigor : Rigor) (cs : List Char) : Reading (Option Exponent) :=
  match cs with
  | [] => .ok (none, [])
  | c :: rest =>
    if c = 'e' ∨ c = 'E' then
      let (sign, rest) := readSign rest
      match rest.takeWhile Char.isDigit with
      | [] => .error (atEnd rigor rest)
      | digits => .ok (some ⟨c, sign, digits⟩, rest.dropWhile Char.isDigit)
    else .ok (none, c :: rest)

/-- Reads the digits before the point. -/
def readWhole (rigor : Rigor) (cs : List Char) : Reading (List Char) :=
  match cs.takeWhile Char.isDigit with
  | [] => .error (atEnd rigor cs)
  | '0' :: _ :: _ => .error .malformed
  | digits => .ok (digits, cs.dropWhile Char.isDigit)

/-- Reads the minus sign, if there is one. -/
def readMinus : List Char → Bool × List Char
  | [] => (false, [])
  | c :: rest => if c = '-' then (true, rest) else (false, c :: rest)

/-- Reads a number. One that is wanted must have a float. -/
def read (rigor : Rigor) (cs : List Char) : Except Flaw (Number × List Char) := do
  let (negative, rest) := readMinus cs
  let (whole, rest) ← readWhole rigor rest
  let (fraction, rest) ← readFraction rigor rest
  let (exponent, rest) ← readExponent rigor rest
  let n : Number := ⟨negative, whole, fraction, exponent⟩
  if rigor = .lenient ∨ n.isRepresentable then return (n, rest) else throw .malformed

end Number

end PolledConnection.Json
