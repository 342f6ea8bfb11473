import SearchSpace.Assignment
import SearchSpace.Expr
import SearchSpace.StateSpace

/-!
# Expression puzzles

The variables of an expression are to be given digits from 1 to 9 so that the expression takes a
target value. A variable of value 0 is still open. The states of a puzzle differ in their
assignments only; a step gives one open variable a digit. Since sums and products grow with their
operands, filling all open variables with the least or with the greatest digit bounds the values
that can still be reached.
-/

namespace SearchSpace

/-- A state of an expression puzzle. -/
structure Puzzle where
  tree : Expr
  /-- The values of its variables, 0 for those that are open. -/
  assignment : Assignment
  target : UInt64
deriving DecidableEq, Repr, Inhabited

/-- The reasons for which a puzzle or a step in it is refused. -/
inductive Invalid where
  | malformed (flaw : Malformed)
  /-- An assignment holds a value that is neither a digit nor 0. -/
  | notADigit (name : String) (value : UInt8)
  /-- An open variable is to get a value that is not a digit from 1 to 9. -/
  | outOfRange (name : String) (value : UInt8)
  | unknownVariable (name : String)
deriving DecidableEq, Repr

/-- The reason in words. -/
def Invalid.reason : Invalid → String
  | .malformed .emptyName => "variable with empty name"
  | .malformed (.noOperands symbol) => "operator '" ++ symbol.toString ++ "' has no operands"
  | .notADigit name value =>
    "variable '" ++ name ++ "' has value " ++ toString value.toNat ++ ", expected 0..=9"
  | .outOfRange name value =>
    "value " ++ toString value.toNat ++ " for '" ++ name ++ "' is outside 1..=9"
  | .unknownVariable name => "variable '" ++ name ++ "' does not appear in the tree"

namespace Puzzle

/-- The digits that can be assigned, in the order in which they are tried. -/
def digits : List UInt8 := [1, 2, 3, 4, 5, 6, 7, 8, 9]

/-- The value of an open variable. -/
def unassigned : UInt8 := 0

/-- The least digit. -/
def leastDigit : UInt8 := 1

/-- The greatest digit. -/
def greatestDigit : UInt8 := 9

/-- Enters values into an assignment one after another. Of two faults in one entry the value counts
before the name. -/
def enterAll : List (String × UInt8) → Assignment → Except Invalid Assignment
  | [], assignment => .ok assignment
  | (name, value) :: rest, assignment =>
    if greatestDigit < value then .error (.notADigit name value)
    else if assignment.contains name then enterAll rest (assignment.insert name value)
    else .error (.unknownVariable name)

/-- The puzzle with the given values, and 0 for the other variables. A malformed expression counts
before a fault in the assignment, and entries count in the order of their names. -/
def create (tree : Expr) (target : UInt64) (assigned : Assignment) :
    Except Invalid Puzzle :=
  match tree.flaw? with
  | some flaw => .error (.malformed flaw)
  | none =>
    (enterAll assigned.entries (Assignment.empty.cover tree.names unassigned)).map
      fun assignment => { tree, assignment, target }

/-- The puzzle in which all variables are open. -/
def ofTree (tree : Expr) (target : UInt64) : Except Invalid Puzzle :=
  create tree target ∅

/-- The open variables in the order of their names. -/
def openVariables (puzzle : Puzzle) : List String :=
  (puzzle.assignment.entries.filter fun entry => entry.2 == unassigned).map (·.1)

/-- The puzzle with another value of one variable. -/
def setVariable (puzzle : Puzzle) (name : String) (value : UInt8) : Puzzle :=
  { puzzle with assignment := puzzle.assignment.insert name value }

/-- Gives a variable a digit, over an older one. Of two faults the value counts first. -/
def assign (puzzle : Puzzle) (name : String) (value : UInt8) : Except Invalid Puzzle :=
  if value < leastDigit || greatestDigit < value then .error (.outOfRange name value)
  else if puzzle.assignment.contains name then .ok (puzzle.setVariable name value)
  else .error (.unknownVariable name)

/-- The value of a variable where open variables have the value `fill`. -/
def filledValue (puzzle : Puzzle) (fill : UInt8) (name : String) : UInt64 :=
  let value := (puzzle.assignment.get? name).getD unassigned
  (if value = unassigned then fill else value).toUInt64

/-- The value of the expression where open variables have the value `fill`. -/
def valueFilling (puzzle : Puzzle) (fill : UInt8) : UInt64 :=
  puzzle.tree.eval (puzzle.filledValue fill)

/-- The least and the greatest value that the expression can still take. -/
def bounds (puzzle : Puzzle) : UInt64 × UInt64 :=
  (puzzle.valueFilling leastDigit, puzzle.valueFilling greatestDigit)

/-- Whether all variables have digits and the expression has the target value. -/
def isSolved (puzzle : Puzzle) : Bool :=
  puzzle.openVariables.isEmpty && puzzle.valueFilling unassigned == puzzle.target

/-- Whether the target lies outside the bounds, or all variables have digits and miss it. -/
def isDeadEnd (puzzle : Puzzle) : Bool :=
  let (least, greatest) := puzzle.bounds
  puzzle.target < least || greatest < puzzle.target ||
    (puzzle.openVariables.isEmpty && least != puzzle.target)

/-- The states in which one more variable has a digit: by the name of the variable, then by the
digit. -/
def successors (puzzle : Puzzle) : List Puzzle :=
  puzzle.openVariables.flatMap fun name => digits.map (puzzle.setVariable name)

/-- The values of the variables in writing. -/
def entriesText : List (String × UInt8) → String
  | [] => ""
  | [(name, value)] => name ++ ": " ++ toString value.toNat
  | (name, value) :: rest => name ++ ": " ++ toString value.toNat ++ ", " ++ entriesText rest

/-- The puzzle in writing: the values of the variables in braces, and on a line of its own the
equation to be solved. -/
def text (puzzle : Puzzle) : String :=
  "\x7b" ++ entriesText puzzle.assignment.entries ++ "\x7d\n" ++ puzzle.tree.text ++ " = "
    ++ toString puzzle.target.toNat

/-- Expression puzzles as a state space. The text of a puzzle is its key. -/
def space : StateSpace Puzzle String where
  successors := successors
  isGoal := isSolved
  isDeadEnd := isDeadEnd
  key := text

/-- Rounds that decide every breadth-first search: each open variable ends up with one of ten
values. -/
def rounds (puzzle : Puzzle) : Nat := Nat.pow 10 puzzle.openVariables.length + 2

end Puzzle

end SearchSpace
