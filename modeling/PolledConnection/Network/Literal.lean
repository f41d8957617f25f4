import PolledConnection.Network.Address
import PolledConnection.Pieces

/-! # Address literals

  Host names that are addresses themselves. The forms are tried in this
  order: four decimal bytes with points; groups with colons, where `::`
  stands for one or more zero groups and the last two groups may be written
  as four bytes; the short forms with points, of one to four numbers in
  decimal, octal or hexadecimal, whose last number fills the remaining bytes;
  and groups followed by a percent sign and a zone.
-/

namespace PolledConnection.Host

/-- The number that digits of a base stand for. At least one digit is needed. -/
def numeral? (base : Nat) (cs : List Char) : Option Nat :=
  if cs.isEmpty then none
  else cs.foldlM (fun n c => (Bytes.hexValue? c).bind fun d =>
    if d < base then some (base * n + d) else none) 0

/-! ### Four bytes -/

/-- A decimal byte without leading zeros. -/
def byte? (cs : List Char) : Option UInt8 :=
  if 3 < cs.length ∨ (1 < cs.length ∧ cs.head? = some '0') then none
  else (numeral? 10 cs).bind fun n => if n ≤ 255 then some (UInt8.ofNat n) else none

/-- Four decimal bytes with points between them. -/
def bytes? (cs : List Char) : Option (UInt8 × UInt8 × UInt8 × UInt8) :=
  match pieces '.' cs with
  | [a, b, c, d] => do return (← byte? a, ← byte? b, ← byte? c, ← byte? d)
  | _ => none

/-- An address of the first family. -/
def v4? (cs : List Char) : Option Host :=
  (bytes? cs).map fun (a, b, c, d) => .v4 a b c d

/-! ### Eight groups -/

/-- A group: one to four hexadecimal digits. -/
def group? (cs : List Char) : Option UInt16 :=
  if 4 < cs.length then none else (numeral? 16 cs).map UInt16.ofNat

/-- The two groups that four bytes make. -/
def pairUp (a b c d : UInt8) : List UInt16 :=
  [UInt16.ofNat (256 * a.toNat + b.toNat), UInt16.ofNat (256 * c.toNat + d.toNat)]

/-- Groups given one by one; `four` tells whether the last piece may be four bytes. -/
def groupsOf? (four : Bool) : List (List Char) → Option (List UInt16)
  | [] => some []
  | [last] =>
    match group? last with
    | some g => some [g]
    | none => if four then (bytes? last).map fun (a, b, c, d) => pairUp a b c d else none
  | p :: ps => do return (← group? p) :: (← groupsOf? four ps)

/-- Groups with colons between them; no groups if the text is empty. -/
def groups? (four : Bool) (cs : List Char) : Option (List UInt16) :=
  if cs.isEmpty then some [] else groupsOf? four (pieces ':' cs)

/-- The text before and behind the first `::`, if there is one. -/
def splitGap : List Char → Option (List Char × List Char)
  | ':' :: ':' :: rest => some ([], rest)
  | [] => none
  | c :: rest => (splitGap rest).map fun (before, behind) => (c :: before, behind)

/-- Groups, if they are eight. -/
def eight? (groups : List UInt16) : Option (Vector UInt16 8) :=
  if h : groups.length = 8 then some ⟨groups.toArray, by simpa using h⟩ else none

/-- Eight groups, of which a gap leaves out one or more that are zero. -/
def eightGroups? (cs : List Char) : Option (Vector UInt16 8) :=
  match splitGap cs with
  | none => (groups? true cs).bind eight?
  | some (before, behind) => do
    let front ← groups? false before
    let back ← groups? true behind
    if front.length + back.length ≤ 7 then
      eight? (front ++ List.replicate (8 - front.length - back.length) 0 ++ back)
    else none

/-- An address of the second family in no particular zone. -/
def v6? (cs : List Char) : Option Host := (eightGroups? cs).map (.v6 · 0)

/-! ### Short forms -/

/-- A number in decimal, in octal behind `0`, or in hexadecimal behind `0x`. -/
def anyNumeral? : List Char → Option Nat
  | '0' :: 'x' :: digits => numeral? 16 digits
  | '0' :: 'X' :: digits => numeral? 16 digits
  | '0' :: [] => some 0
  | '0' :: digits => numeral? 8 digits
  | cs => numeral? 10 cs

/-- One to four numbers: all but the last are bytes, the last fills what is left. -/
def shortForm? (cs : List Char) : Option Host := do
  let numbers ← (pieces '.' cs).mapM anyNumeral?
  let last ← numbers.getLast?
  let front := numbers.dropLast
  let room := 8 * (4 - front.length)
  if front.length ≤ 3 ∧ front.all (· ≤ 255) ∧ last < 1 <<< room then
    let total := front.foldl (fun n b => (n <<< 8) + b) 0 <<< room + last
    return .v4 (UInt8.ofNat (total >>> 24)) (UInt8.ofNat (total >>> 16))
      (UInt8.ofNat (total >>> 8)) (UInt8.ofNat total)
  else none

/-! ### Zones -/

/-- The interfaces that every machine has, with their numbers. -/
def interfaces : List (String × UInt32) := [("lo", 1)]

/-- Whether an address means something on one link, or on one machine, only. -/
def isLinkBound (groups : Vector UInt16 8) : Bool :=
  groups[0] &&& 0xffc0 == 0xfe80 || groups[0] &&& 0xff0f == 0xff01 || groups[0] &&& 0xff0f == 0xff02

/-- The zone of an address: an interface's name, where the address is bound to a link, or a
    decimal number. -/
def zone? (groups : Vector UInt16 8) (cs : List Char) : Option UInt32 :=
  let named := if isLinkBound groups then interfaces.lookup (String.ofList cs) else none
  named <|> ((numeral? 10 cs).filter (· < UInt32.size)).map UInt32.ofNat

/-- An address of the second family with a zone. -/
def zoned? (cs : List Char) : Option Host :=
  match cs.dropWhile (· != '%') with
  | [] => none
  | _ :: zone => do
    let groups ← eightGroups? (cs.takeWhile (· != '%'))
    return .v6 groups (← zone? groups zone)

/-- The address that a host name itself is. -/
def ofLiteral? (name : String) : Option Host :=
  let cs := name.toList
  v4? cs <|> v6? cs <|> shortForm? cs <|> zoned? cs

end PolledConnection.Host
