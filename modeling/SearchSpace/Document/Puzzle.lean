import SearchSpace.Document.Expr
import SearchSpace.Puzzle

/-!
# Puzzles as JSON

The description of a puzzle holds an expression, a target and optionally the values of variables. It
is an object, or the list of its values in that order. A description may be of a puzzle that does
not exist: reading it does not check the expression or the names and values of variables.
-/

namespace SearchSpace

open Json (ReadError Reader)

namespace Assignment

/-- The assignment as a JSON value. -/
def toJson (assignment : Assignment) : Json.Value :=
  .object (assignment.entries.map fun entry => (entry.1, .number entry.2.toNat))

/-- Reads the value of one variable, over an older one of the same name. -/
def readEntry (name : String) (assignment : Assignment) : Reader Assignment := fun text => do
  let (value, rest) ← Json.readNatural "u8" UInt8.size (← Json.expectColon text)
  return (assignment.insert name (UInt8.ofNat value), rest)

/-- Reads an assignment. -/
def read (steps nesting : Nat) : Reader Assignment := fun text =>
  match Json.skipBlank text, nesting with
  | '{' :: _, 0 => .error .nestedTooDeep
  | '{' :: rest, _ + 1 => Json.readEntries readEntry steps true ∅ rest
  | rest, _ => .error (Json.mismatch "a map" rest)

end Assignment

/-- The description of a puzzle. -/
structure Puzzle.Description where
  tree : Expr
  target : UInt64
  /-- The values of variables; those that are left out are open. -/
  assignment : Assignment := ∅
deriving DecidableEq, Repr, Inhabited

namespace Puzzle.Description

/-- The description as a JSON value. -/
def toJson (description : Description) : Json.Value :=
  .object [
    ("tree", description.tree.toJson),
    ("target", .number description.target.toNat),
    ("variables", description.assignment.toJson)]

/-- The fields that have been read so far. -/
structure Fields where
  tree : Option Expr := none
  target : Option UInt64 := none
  assignment : Option Assignment := none

/-- Reads one entry. -/
def readEntry (steps nesting : Nat) (key : String) (fields : Fields) : Reader Fields := fun text =>
  match key with
  | "tree" => do
    let (value, rest) ← Json.readField key fields.tree (Expr.read steps nesting) text
    return ({ fields with tree := some value }, rest)
  | "target" => do
    let (value, rest) ← Json.readField key fields.target (readUInt64 "u64") text
    return ({ fields with target := some value }, rest)
  | "variables" => do
    let (value, rest) ← Json.readField key fields.assignment (Assignment.read steps nesting) text
    return ({ fields with assignment := some value }, rest)
  | _ => Json.skipField steps fields text

/-- Reads the entries of a description. -/
def readFields (steps nesting : Nat) : Reader Description := fun text => do
  let (fields, rest) ← Json.readEntries (readEntry steps nesting) steps true {} text
  let tree ← Json.requireField "tree" fields.tree
  let target ← Json.requireField "target" fields.target
  return ({ tree, target, assignment := fields.assignment.getD ∅ }, rest)

/-- Reads the values of a description in a list. -/
def readElements (steps nesting : Nat) : Reader Description := fun text => do
  let expected := "struct PuzzleSpec with 3 elements"
  let (tree, rest) ← Json.readElement expected 0 (Expr.read steps nesting) text
  let (target, rest) ← Json.readElement expected 1 (readUInt64 "u64") rest
  match ← Json.nextElement? false rest with
  | none => return ({ tree, target }, rest)
  | some rest =>
    let (assignment, rest) ← Assignment.read steps nesting rest
    return ({ tree, target, assignment }, rest)

/-- Reads the description of a puzzle. -/
def read (steps nesting : Nat) : Reader Description :=
  Json.readStruct "struct PuzzleSpec" nesting (readFields steps) (readElements steps)

/-- The description that a document holds. -/
def ofJson (document : String) : Except ReadError Description := Json.readDocument read document

/-- The puzzle that is described, if it exists. -/
def puzzle (description : Description) : Except Invalid Puzzle :=
  Puzzle.create description.tree description.target description.assignment

end Puzzle.Description

/-- The reasons for which a document cannot be read. -/
inductive Unreadable where
  | noSuchFile
  | permissionDenied
  /-- The path goes through something that is no directory. -/
  | notDirectory
  | isDirectory
  /-- The path, or a part of it, is too long. -/
  | nameTooLong
  /-- The bytes are not UTF-8. -/
  | notText
  /-- Another reason, in words. -/
  | other (reason : String)
deriving DecidableEq, Repr

/-- The reason in words, with its number if the system gave it. -/
def Unreadable.message : Unreadable → String
  | .noSuchFile => "No such file or directory (os error 2)"
  | .permissionDenied => "Permission denied (os error 13)"
  | .notDirectory => "Not a directory (os error 20)"
  | .isDirectory => "Is a directory (os error 21)"
  | .nameTooLong => "File name too long (os error 36)"
  | .notText => "stream did not contain valid UTF-8"
  | .other reason => reason

/-- The reasons for which no puzzle can be loaded. -/
inductive LoadError where
  /-- The document cannot be read. -/
  | unreadable (reason : Unreadable)
  /-- The document is no description of a puzzle. -/
  | document (reason : ReadError)
  /-- The description is that of no puzzle. -/
  | invalid (reason : Invalid)
  /-- It was not said where the document is. -/
  | noSource
deriving DecidableEq, Repr

/-- The reason in words. -/
def LoadError.message : LoadError → String
  | .unreadable reason => "IO error: " ++ reason.message
  | .document reason => "JSON parse error: " ++ reason.message
  | .invalid reason => "Invalid puzzle: " ++ reason.reason
  | .noSource => "Invalid puzzle: must provide either a file path or --stdin"

/-- The puzzle that a document describes. -/
def Puzzle.ofJson (document : String) : Except LoadError Puzzle :=
  match Description.ofJson document with
  | .error reason => .error (.document reason)
  | .ok description => description.puzzle.mapError .invalid

end SearchSpace
