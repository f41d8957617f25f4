import PolledConnection.Json.Number
import PolledConnection.Json.Text

/-! # JSON values

  A value as a tree, its compact text, and the reader for whole values.
  Objects are lists of members in the order of the text, so a name may come
  again; numbers stay as written.

  A value that is wanted may be nested `depthLimit` deep and not deeper. A
  skipped value may be nested as deep as it likes.
-/

namespace PolledConnection.Json

/-- A JSON value. -/
inductive Value where
  | null
  | truth (b : Bool)
  | number (n : Number)
  | text (s : String)
  | list (items : List Value)
  | record (members : List (String × Value))
deriving Repr

/-! ### Compact text -/

/-- Puts a comma between texts. -/
def commaSeparated : List (List Char) → List Char
  | [] => []
  | [t] => t
  | t :: ts => t ++ ',' :: commaSeparated ts

/-- The text of a truth value. -/
def truthChars (b : Bool) : List Char := if b then "true".toList else "false".toList

mutual

/-- The text of a value without any blank. -/
def Value.compact : Value → List Char
  | .null => "null".toList
  | .truth b => truthChars b
  | .number n => n.chars
  | .text s => quoted s
  | .list items => '[' :: (commaSeparated (Value.compactItems items) ++ [']'])
  | .record members => '{' :: (commaSeparated (Value.compactMembers members) ++ ['}'])

/-- The texts of the items of a list. -/
def Value.compactItems : List Value → List (List Char)
  | [] => []
  | v :: vs => v.compact :: Value.compactItems vs

/-- The texts of the members of an object. -/
def Value.compactMembers : List (String × Value) → List (List Char)
  | [] => []
  | (name, v) :: ms => (quoted name ++ ':' :: v.compact) :: Value.compactMembers ms

end

mutual

/-- How deep lists and objects are nested in a value. -/
def Value.depth : Value → Nat
  | .list items => Value.depthItems items + 1
  | .record members => Value.depthMembers members + 1
  | _ => 0

/-- The largest depth among items. -/
def Value.depthItems : List Value → Nat
  | [] => 0
  | v :: vs => max v.depth (Value.depthItems vs)

/-- The largest depth among members. -/
def Value.depthMembers : List (String × Value) → Nat
  | [] => 0
  | (_, v) :: ms => max v.depth (Value.depthMembers ms)

end

/-! ### Reading -/

/-- How deep a wanted value may be nested, the lists and objects around it included. -/
def depthLimit : Nat := 127

/-- Where the next member of an object starts, or else what follows the object. A member is
    given by its name and the text behind the name. -/
def nextMember (rigor : Rigor) (first : Bool) (cs : List Char) :
    Except Flaw (List Char ⊕ String × List Char) :=
  match nextItem '}' first cs with
  | .error flaw => .error flaw
  | .ok (.inl rest) => .ok (.inl rest)
  | .ok (.inr []) => .error .ended
  | .ok (.inr (q :: more)) =>
    if q = '"' then (readText rigor more).map fun (name, rest) => .inr (name, rest)
    else .error .malformed

/-- Reads the members of an object up to and including its end. -/
def membersOf (rigor : Rigor) (value : List Char → Reading Value) :
    Nat → Bool → List Char → Except Flaw (List (String × Value) × List Char)
  | 0, _, _ => .error .malformed
  | fuel + 1, first, cs => do
    match ← nextMember rigor first cs with
    | .inl rest => return ([], rest)
    | .inr (name, rest) =>
      let rest ← colon rest
      let (v, rest) ← value rest
      let (ms, rest) ← membersOf rigor value fuel false rest
      return ((name, v) :: ms, rest)

/-- Whether no further list or object may be entered. -/
def tooDeep (rigor : Rigor) (budget : Nat) : Bool := rigor = .strict && budget = 0

/-- Reads a value that is neither a list nor an object, from its first character. -/
def readScalar (rigor : Rigor) (cs : List Char) : Reading Value :=
  match cs with
  | [] => .error .ended
  | c :: rest =>
    if c = 'n' then (literal "ull".toList rest).map (Value.null, ·)
    else if c = 't' then (literal "rue".toList rest).map (Value.truth true, ·)
    else if c = 'f' then (literal "alse".toList rest).map (Value.truth false, ·)
    else if c = '"' then (readText rigor rest).map fun (s, rest) => (.text s, rest)
    else if c = '-' ∨ c.isDigit then
      (Number.read rigor (c :: rest)).map fun (n, rest) => (.number n, rest)
    else .error .malformed

/-- Reads a value. `budget` lists and objects may be entered; `fuel` only has to exceed the
    length of the text. -/
def readWith (rigor : Rigor) : (fuel budget : Nat) → List Char → Reading Value
  | 0, _, _ => .error .malformed
  | fuel + 1, budget, cs =>
    match skipBlanks cs with
    | [] => .error .ended
    | c :: rest =>
      if c = '[' then
        if tooDeep rigor budget then .error .malformed
        else (itemsOf (readWith rigor fuel (budget - 1)) fuel true rest).map
          fun (items, rest) => (.list items, rest)
      else if c = '{' then
        if tooDeep rigor budget then .error .malformed
        else (membersOf rigor (readWith rigor fuel (budget - 1)) fuel true rest).map
          fun (members, rest) => (.record members, rest)
      else readScalar rigor (c :: rest)

/-- Reads a value inside `depth` lists and objects. -/
def Value.read (depth : Nat) (cs : List Char) : Reading Value :=
  readWith .strict (cs.length + 1) (depthLimit - depth) cs

/-- Skips a value. -/
def Value.skip (cs : List Char) : Except Flaw (List Char) :=
  (readWith .lenient (cs.length + 1) 0 cs).map Prod.snd

/-! ### Values of a wanted type -/

/-- What is wrong with a value, from its first character, that is not of the wanted type. A
    value that is neither a list nor an object is read to its end first. -/
def mismatch (cs : List Char) : Flaw :=
  match cs with
  | '[' :: _ => .mistyped
  | '{' :: _ => .mistyped
  | _ =>
    match readScalar .strict cs with
    | .error flaw => flaw
    | .ok _ => .mistyped

/-- Reads a value that must be a string. -/
def readString (cs : List Char) : Reading String :=
  let cs := skipBlanks cs
  match cs with
  | '"' :: rest => readText .strict rest
  | _ => .error (mismatch cs)

/-- Reads a value that must be an integer in a range. -/
def readInteger (low high : Int) (cs : List Char) : Reading Int :=
  let cs := skipBlanks cs
  match readScalar .strict cs with
  | .ok (.number n, rest) =>
    match n.integerIn? low high with
    | some i => .ok (i, rest)
    | none => .error .mistyped
  | _ => .error (mismatch cs)

end PolledConnection.Json
