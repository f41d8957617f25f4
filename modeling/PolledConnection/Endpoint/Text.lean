import PolledConnection.Endpoint.Basic
import PolledConnection.Json.Value

/-! # The text of an endpoint

  An endpoint is written as a JSON object with the members `hostname`, `port`
  and, unless there are none, `options`: a list of pairs of a name and a
  value. Reading takes the members in any order and skips members of other
  names; it also takes a list of the three parts in that order.

  A text is read from left to right and the first flaw decides, so the parts
  are read straight from the characters. Only when the whole text has been
  read is the host name checked.
-/

namespace PolledConnection

open Json (Flaw Value)

/-! ### Writing -/

/-- The JSON value of an option value. -/
def Setting.toJson : Setting → Value
  | .truth b => .truth b
  | .whole n => .number (.ofInt n.toInt)
  | .text s => .text s

/-- The JSON value of a list of options. -/
def Settings.toJson (s : Settings) : Value :=
  .list (s.entries.map fun (name, value) => .list [.text name, value.toJson])

/-- The JSON value of an endpoint. -/
def Endpoint.toJson (e : Endpoint) : Value :=
  let parts := [("hostname", .text e.hostname), ("port", .number (.ofInt e.port.toNat))]
  .record (if e.options.isEmpty then parts else parts ++ [("options", e.options.toJson)])

/-- An option value as text. -/
def Setting.json (s : Setting) : String := String.ofList s.toJson.compact

/-- A list of options as text. -/
def Settings.json (s : Settings) : String := String.ofList s.toJson.compact

/-- An endpoint as text. -/
def Endpoint.json (e : Endpoint) : String := String.ofList e.toJson.compact

/-! ### Reading options -/

/-- The option value that a JSON value stands for. -/
def Setting.ofJson? : Value → Option Setting
  | .truth b => some (.truth b)
  | .number n => (n.integerIn? Int64.minValue.toInt Int64.maxValue.toInt).map (.whole <| .ofInt ·)
  | .text s => some (.text s)
  | _ => none

/-- Reads an option value that stands inside `depth` lists and objects. It is read whole before
    it is found to be of the right type or not. -/
def Setting.read (depth : Nat) (cs : List Char) : Except Flaw (Setting × List Char) := do
  let (v, rest) ← Value.read depth cs
  match Setting.ofJson? v with
  | some s => return (s, rest)
  | none => throw .mistyped

/-- Reads an option, a list of a name and a value; the option stands inside `depth` lists and
    objects. -/
def Settings.readEntry (depth : Nat) (cs : List Char) :
    Except Flaw ((String × Setting) × List Char) := do
  match Json.skipBlanks cs with
  | '[' :: rest =>
    match ← Json.nextItem ']' true rest with
    | .inl _ => throw .mistyped
    | .inr rest =>
      let (name, rest) ← Json.readString rest
      match ← Json.nextItem ']' false rest with
      | .inl _ => throw .mistyped
      | .inr rest =>
        let (value, rest) ← Setting.read (depth + 1) rest
        let rest ← Json.endList rest
        return ((name, value), rest)
  | cs => throw (Json.mismatch cs)

/-- Reads a list of options that stands inside `depth` lists and objects. -/
def Settings.read (depth : Nat) (cs : List Char) : Except Flaw (Settings × List Char) := do
  match Json.skipBlanks cs with
  | '[' :: rest =>
    let (entries, rest) ← Json.itemsOf (readEntry (depth + 1)) (rest.length + 1) true rest
    return (⟨entries⟩, rest)
  | cs => throw (Json.mismatch cs)

/-! ### Reading endpoints -/

namespace Endpoint

/-- The parts of an endpoint that have been read so far. -/
structure Draft where
  /-- The host name, once read. -/
  hostname : Option String
  /-- The port, once read. -/
  port : Option UInt16
  /-- The options, once read. -/
  options : Option Settings
deriving DecidableEq, Repr

/-- No part has been read. -/
def Draft.empty : Draft := ⟨none, none, none⟩

/-- The endpoint of a draft. Host name and port must have been read. -/
def Draft.finish (d : Draft) : Except Flaw Endpoint :=
  match d.hostname, d.port with
  | some hostname, some port => .ok ⟨hostname, port, d.options.getD .empty⟩
  | _, _ => .error .mistyped

/-- Reads a port. -/
def readPort (cs : List Char) : Except Flaw (UInt16 × List Char) := do
  let (i, rest) ← Json.readInteger 0 65535 cs
  return (UInt16.ofNat i.toNat, rest)

/-- Reads what follows the name of a member. A part may not come twice, which shows as soon as
    its name has been read. -/
def readMember (d : Draft) (name : String) (cs : List Char) :
    Except Flaw (Draft × List Char) := do
  if name = "hostname" then
    if d.hostname.isSome then throw .mistyped
    let (hostname, rest) ← Json.readString (← Json.colon cs)
    return ({ d with hostname := some hostname }, rest)
  else if name = "port" then
    if d.port.isSome then throw .mistyped
    let (port, rest) ← readPort (← Json.colon cs)
    return ({ d with port := some port }, rest)
  else if name = "options" then
    if d.options.isSome then throw .mistyped
    let (options, rest) ← Settings.read 1 (← Json.colon cs)
    return ({ d with options := some options }, rest)
  else
    let rest ← Value.skip (← Json.colon cs)
    return (d, rest)

/-- Reads the members of an object up to and including its end. `fuel` only has to exceed the
    number of members. -/
def readMembers : (fuel : Nat) → Bool → Draft → List Char → Except Flaw (Draft × List Char)
  | 0, _, _, _ => .error .malformed
  | fuel + 1, first, d, cs => do
    match ← Json.nextMember .strict first cs with
    | .inl rest => return (d, rest)
    | .inr (name, rest) =>
      let (d, rest) ← readMember d name rest
      readMembers fuel false d rest

/-- Reads the parts of an endpoint as the items of a list, up to and including its end. -/
def readItems (cs : List Char) : Except Flaw (Endpoint × List Char) := do
  match ← Json.nextItem ']' true cs with
  | .inl _ => throw .mistyped
  | .inr rest =>
    let (hostname, rest) ← Json.readString rest
    match ← Json.nextItem ']' false rest with
    | .inl _ => throw .mistyped
    | .inr rest =>
      let (port, rest) ← readPort rest
      match ← Json.nextItem ']' false rest with
      | .inl rest => return (⟨hostname, port, .empty⟩, rest)
      | .inr rest =>
        let (options, rest) ← Settings.read 1 rest
        let rest ← Json.endList rest
        return (⟨hostname, port, options⟩, rest)

/-- Reads an endpoint, in either form. -/
def read (cs : List Char) : Except Flaw (Endpoint × List Char) := do
  match Json.skipBlanks cs with
  | '\x7b' :: rest =>
    let (d, rest) ← readMembers (rest.length + 1) true .empty rest
    return (← d.finish, rest)
  | '[' :: rest => readItems rest
  | cs => throw (Json.mismatch cs)

end Endpoint

/-! ### Whole texts -/

/-- Turns the flaw of a text into a fault. -/
def readDocument {α : Type} (read : List Char → Except Flaw (α × List Char)) (text : String) :
    Except Fault α :=
  (Json.document read text).mapError .configuration

/-- The option value that a text stands for. -/
def Setting.ofText (text : String) : Except Fault Setting := readDocument (Setting.read 0) text

/-- The list of options that a text stands for. -/
def Settings.ofText (text : String) : Except Fault Settings := readDocument (Settings.read 0) text

/-- The endpoint that a text stands for. -/
def Endpoint.ofText (text : String) : Except Fault Endpoint := do
  let e ← readDocument Endpoint.read text
  e.validate
  return e

/-- The endpoint that the content of a file stands for. -/
def Endpoint.ofBytes (content : Bytes) : Except Fault Endpoint :=
  match String.fromUTF8? ⟨content.toArray⟩ with
  | some text => Endpoint.ofText text
  | none => .error (.io (.worded .invalidData "stream did not contain valid UTF-8"))

/-- The endpoint in a file, given what the file holds or why that cannot be read. -/
def Endpoint.ofFile : Except IoFault Bytes → Except Fault Endpoint
  | .ok content => Endpoint.ofBytes content
  | .error cause => .error (.io cause)

end PolledConnection
