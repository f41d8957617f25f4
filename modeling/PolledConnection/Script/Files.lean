import PolledConnection.Bytes
import PolledConnection.Fault
import PolledConnection.Pieces

/-! # Scripted files

  A tree of files and directories, and the way from a path to what lies there.
  A path is followed name by name, from the root if it starts with a slash,
  else from the present directory. Every name but the last must lead to a
  directory, and so must the last if a slash follows it.
-/

namespace PolledConnection.Script

/-- What lies at a place. -/
inductive Node where
  /-- A file. -/
  | file (content : Bytes)
  /-- A directory. -/
  | directory
deriving DecidableEq, Repr

/-- A place: the names of the directories from the root to it, and its own. -/
abbrev Place : Type := List String

/-- Files and directories. -/
structure Files where
  /-- What lies where. -/
  nodes : List (Place × Node)
  /-- The present directory. -/
  here : Place
deriving DecidableEq, Repr

namespace Files

/-- A name may have so many bytes. -/
def nameLimit : Nat := 255

/-- A path must have fewer bytes. -/
def pathLimit : Nat := 4096

/-- What lies at a place. The root always exists. -/
def node (f : Files) (place : Place) : Except SystemError Node :=
  if place = [] then .ok .directory
  else
    match f.nodes.lookup place with
    | some n => .ok n
    | none => .error .noSuchFile

/-- Follows names from a place. An empty name and a point stay, two points lead back. -/
def follow (f : Files) (place : Place) : List String → Except SystemError Node
  | [] => f.node place
  | name :: rest => do
    match ← f.node place with
    | .file _ => throw .notADirectory
    | .directory =>
      if name = "" ∨ name = "." then f.follow place rest
      else if name = ".." then f.follow place.dropLast rest
      else if nameLimit < name.utf8ByteSize then throw .nameTooLong
      else f.follow (place ++ [name]) rest

/-- What lies at the end of a path. -/
def find (f : Files) (path : String) : Except SystemError Node :=
  if pathLimit ≤ path.utf8ByteSize then .error .nameTooLong
  else if path = "" then .error .noSuchFile
  else
    f.follow (if path.toList.head? = some '/' then [] else f.here)
      ((pieces '/' path.toList).map String.ofList)

/-- Reads a file. -/
def read (f : Files) (path : String) : Except IoFault Bytes :=
  match f.find path with
  | .ok (.file content) => .ok content
  | .ok .directory => .error (.system .isADirectory)
  | .error e => .error (.system e)

end Files

end PolledConnection.Script
