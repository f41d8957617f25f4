import PolledConnection.Json.Flaw

/-! # Scanning JSON text

  The pieces that every reader shares. A reader takes the remaining
  characters to a value and the characters after it, or to the first flaw.

  Some parts of a text are read for their value and some only to find their
  end. The second are read with `Rigor.lenient`: there the size of numbers,
  the pairing of surrogates and the nesting depth do not matter.
-/

namespace PolledConnection.Json

/-- What a reader answers: a value and the rest of the text. -/
abbrev Reading (α : Type) := Except Flaw (α × List Char)

/-- How closely a value is looked at. -/
inductive Rigor where
  /-- The value is wanted. -/
  | strict
  /-- The value is skipped. -/
  | lenient
deriving DecidableEq, Repr

/-- The four characters that may stand between tokens. -/
def isBlank (c : Char) : Bool := c = ' ' || c = '\n' || c = '\t' || c = '\r'

/-- The text from its first character that is not blank. -/
def skipBlanks (cs : List Char) : List Char := cs.dropWhile isBlank

@[simp] theorem skipBlanks_nil : skipBlanks [] = [] := rfl

/-- Reads exactly the given characters. -/
def literal : List Char → List Char → Except Flaw (List Char)
  | [], rest => .ok rest
  | _ :: _, [] => .error .ended
  | l :: ls, c :: cs => if c = l then literal ls cs else .error .malformed

/-- Reads the character that separates a name from its value. -/
def colon (cs : List Char) : Except Flaw (List Char) :=
  match skipBlanks cs with
  | [] => .error .ended
  | c :: rest => if c = ':' then .ok rest else .error .malformed

/-- Where the next item of a sequence starts, or else what follows the sequence, which ends
    with `close`. `first` tells whether no item came before. -/
def nextItem (close : Char) (first : Bool) (cs : List Char) :
    Except Flaw (List Char ⊕ List Char) :=
  match skipBlanks cs with
  | [] => .error .ended
  | c :: rest =>
    if c = close then .ok (.inl rest)
    else if first then .ok (.inr (c :: rest))
    else if c = ',' then
      match skipBlanks rest with
      | [] => .error .ended
      | d :: more => if d = close then .error .malformed else .ok (.inr (d :: more))
    else .error .malformed

/-- Reads the end of a list that may hold no further item. -/
def endList (cs : List Char) : Except Flaw (List Char) :=
  match skipBlanks cs with
  | [] => .error .ended
  | c :: rest => if c = ']' then .ok rest else .error .malformed

/-- Reads the items of a list up to and including its end. -/
def itemsOf {α : Type} (item : List Char → Reading α) :
    Nat → Bool → List Char → Except Flaw (List α × List Char)
  | 0, _, _ => .error .malformed
  | fuel + 1, first, cs => do
    match ← nextItem ']' first cs with
    | .inl rest => return ([], rest)
    | .inr start =>
      let (a, rest) ← item start
      let (as, rest) ← itemsOf item fuel false rest
      return (a :: as, rest)

/-- Reads a whole text: a value with nothing but blanks around it. -/
def document {α : Type} (read : List Char → Reading α) (text : String) : Except Flaw α := do
  let (a, rest) ← read text.toList
  match skipBlanks rest with
  | [] => return a
  | _ => throw .malformed

end PolledConnection.Json
