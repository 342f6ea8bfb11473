import SearchSpace.Document.Expr
import SearchSpace.Solver

/-!
# Limits and strategies as JSON

Limits are an object, or the list of its two values. A strategy is its name, or an object with the
name as its key and nothing as the value.
-/

namespace SearchSpace

open Json (ReadError Reader)

namespace Limits

/-- The limits as a JSON value. -/
def toJson (limits : Limits) : Json.Value :=
  .object [
    ("maxDepth", .number limits.maxDepth.toNat),
    ("maxExpansions",
      match limits.maxExpansions with
      | some limit => .number limit.toNat
      | none => .null)]

/-- The fields that have been read so far. -/
structure Fields where
  maxDepth : Option UInt64 := none
  /-- The bound on the expansions, or that there is none. -/
  maxExpansions : Option (Option UInt64) := none

/-- Reads an optional bound. -/
def readBound : Reader (Option UInt64) := Json.readOptional (readUInt64 "usize")

/-- Reads one entry. -/
def readEntry (steps : Nat) (key : String) (fields : Fields) : Reader Fields := fun text =>
  match key with
  | "maxDepth" => do
    let (value, rest) ← Json.readField key fields.maxDepth (readUInt64 "usize") text
    return ({ fields with maxDepth := some value }, rest)
  | "maxExpansions" => do
    let (value, rest) ← Json.readField key fields.maxExpansions readBound text
    return ({ fields with maxExpansions := some value }, rest)
  | _ => Json.skipField steps fields text

/-- Reads the entries of limits. A missing bound on the expansions is none. -/
def readFields (steps : Nat) : Reader Limits := fun text => do
  let (fields, rest) ← Json.readEntries (readEntry steps) steps true {} text
  let maxDepth ← Json.requireField "maxDepth" fields.maxDepth
  return ({ maxDepth, maxExpansions := fields.maxExpansions.getD none }, rest)

/-- Reads the values of limits in a list. -/
def readElements : Reader Limits := fun text => do
  let expected := "struct SearchLimits with 2 elements"
  let (maxDepth, rest) ← Json.readElement expected 0 (readUInt64 "usize") text
  let (maxExpansions, rest) ← Json.readElement expected 1 readBound rest
  return ({ maxDepth, maxExpansions }, rest)

/-- Reads limits. -/
def read (steps nesting : Nat) : Reader Limits :=
  Json.readStruct "struct SearchLimits" nesting (fun _ => readFields steps) fun _ => readElements

/-- The limits that a document describes. -/
def ofJson (document : String) : Except ReadError Limits := Json.readDocument read document

end Limits

namespace Strategy

/-- The strategy as a JSON value. -/
def toJson (strategy : Strategy) : Json.Value := .text strategy.name

/-- The names of the strategies. -/
def known : List String := ["dfs", "bfs"]

/-- The strategy of the given name, one of those that are known. -/
def ofName (name : String) : Strategy := if name = "dfs" then .dfs else .bfs

/-- Reads what stands in the place of the content of a strategy. -/
def readContent (name : String) : Reader Strategy := fun text => do
  let ((), rest) ← Json.readNull "unit" text
  return (ofName name, rest)

/-- Reads a strategy. -/
def read (_steps : Nat) : Nat → Reader Strategy
  | 0 => Json.readVariant known none fun name => .ok (ofName name)
  | _ + 1 => Json.readVariant known (some readContent) fun name => .ok (ofName name)

/-- The strategy that a document describes. -/
def ofJson (document : String) : Except ReadError Strategy := Json.readDocument read document

end Strategy

end SearchSpace
