import PolledConnection.Bytes

/-! # Network addresses

  A host address of either family with a port, and its text. Of an address of
  the second family the longest run of zero groups is written as `::`, the
  first of several equally long ones; a run of one group is not. Such an
  address may lie in a zone, the network behind one of the machine's
  interfaces, whose number then follows the groups.
-/

namespace PolledConnection

/-- A host address. -/
inductive Host where
  /-- Four bytes. -/
  | v4 (a b c d : UInt8)
  /-- Eight groups of two bytes, and the zone; zero stands for none in particular. -/
  | v6 (groups : Vector UInt16 8) (zone : UInt32)
deriving DecidableEq, Repr

/-- A host address with a port. -/
structure Address where
  /-- The host. -/
  host : Host
  /-- The port. -/
  port : UInt16
deriving DecidableEq, Repr

/-! ### Text -/

namespace Host

/-- Four bytes in decimal, with points between them. -/
def dotted (a b c d : UInt8) : String := s!"{a.toNat}.{b.toNat}.{c.toNat}.{d.toNat}"

/-- Groups in hexadecimal, with colons between them. -/
def colonSeparated (groups : List UInt16) : String :=
  ":".intercalate (groups.map fun g => String.ofList (Nat.toDigits 16 g.toNat))

/-- How many zero groups a list starts with. -/
def zeroRun (groups : List UInt16) : Nat := (groups.takeWhile (· == 0)).length

/-- Where the longest run of zero groups starts, and its length; the first of equally long
    ones. `start` is the position of the list's head. -/
def longestZeroRun : (start : Nat) → List UInt16 → Nat × Nat
  | _, [] => (0, 0)
  | start, g :: gs =>
    let here := zeroRun (g :: gs)
    let later := longestZeroRun (start + 1) gs
    if later.2 ≤ here then (start, here) else later

/-- Eight groups with their longest run of zeros left out. -/
def compressed (groups : List UInt16) : String :=
  let (start, count) := longestZeroRun 0 groups
  if count ≤ 1 then colonSeparated groups
  else colonSeparated (groups.take start) ++ "::" ++ colonSeparated (groups.drop (start + count))

/-- The high byte of a group. -/
def highByte (g : UInt16) : UInt8 := UInt8.ofNat (g.toNat / 256)

/-- The low byte of a group. -/
def lowByte (g : UInt16) : UInt8 := UInt8.ofNat (g.toNat % 256)

/-- The text of eight groups. A mapped address of the first family keeps its points. -/
def grouped (groups : List UInt16) : String :=
  match groups with
  | [0, 0, 0, 0, 0, 0xffff, g, h] =>
    "::ffff:" ++ dotted (highByte g) (lowByte g) (highByte h) (lowByte h)
  | gs => compressed gs

/-- The text of a host address. -/
def text : Host → String
  | .v4 a b c d => dotted a b c d
  | .v6 groups zone =>
    if zone = 0 then grouped groups.toList else s!"{grouped groups.toList}%{zone.toNat}"

end Host

/-- The text of an address: host and port, the host in brackets where it holds colons. -/
def Address.text (a : Address) : String :=
  match a.host with
  | .v4 .. => s!"{a.host.text}:{a.port.toNat}"
  | .v6 .. => s!"[{a.host.text}]:{a.port.toNat}"

end PolledConnection
