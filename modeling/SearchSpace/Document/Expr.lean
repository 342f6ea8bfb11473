import SearchSpace.Expr
import SearchSpace.Json.Reader
import SearchSpace.Json.Value

/-!
# Expressions as JSON

An expression is an object with one entry, whose key says what kind of node it is.
-/

namespace SearchSpace

open Json (ReadError Reader)

/-- A number below `2 ^ 64`. -/
def readUInt64 (expected : String) : Reader UInt64 := fun text => do
  let (value, rest) ← Json.readNatural expected UInt64.size text
  return (UInt64.ofNat value, rest)

namespace Expr

mutual

/-- The expression as a JSON value. -/
def toJson : Expr → Json.Value
  | .num value => .object [("num", .number value.toNat)]
  | .var name => .object [("var", .text name)]
  | .add operands => .object [("add", .list (allToJson operands))]
  | .mul operands => .object [("mul", .list (allToJson operands))]

/-- The operands as JSON values. -/
def allToJson : List Expr → List Json.Value
  | [] => []
  | operand :: rest => toJson operand :: allToJson rest

end

/-- The kinds of nodes. -/
def kinds : List String := ["num", "var", "add", "mul"]

/-- Reads what belongs to a node of the given kind, given a reader for operands if a list may be
entered. -/
def readContent (steps : Nat) (operand? : Option (Reader Expr)) (kind : String) : Reader Expr :=
  fun text =>
    match kind with
    | "num" => do
      let (value, rest) ← readUInt64 "u64" text
      return (.num value, rest)
    | "var" => do
      let (name, rest) ← Json.readText "a string" text
      return (.var name, rest)
    | "add" => do
      let (operands, rest) ← Json.readList steps operand? text
      return (.add operands, rest)
    | _ => do
      let (operands, rest) ← Json.readList steps operand? text
      return (.mul operands, rest)

/-- No node consists of its kind alone. -/
def withoutContent (_kind : String) : Except ReadError Expr :=
  .error (.wrongType .unitVariant "newtype variant")

/-- Reads an expression within which the given number of lists and objects may be entered. -/
def read (steps : Nat) : Nat → Reader Expr
  | 0 => Json.readVariant kinds none withoutContent
  | 1 => Json.readVariant kinds (some (readContent steps none)) withoutContent
  | nesting + 2 =>
    Json.readVariant kinds (some (readContent steps (some (read steps nesting)))) withoutContent

/-- The expression that a document holds. -/
def ofJson (document : String) : Except ReadError Expr := Json.readDocument read document

end Expr

end SearchSpace
