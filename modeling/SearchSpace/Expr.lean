import SearchSpace.Saturating

/-!
# Arithmetic expressions

Trees of 64-bit constants and named variables under sums and products with any number of operands.
A tree is well formed if no operator lacks operands and no name is empty; other trees can be built,
evaluated and written all the same.
-/

namespace SearchSpace

/-- An arithmetic expression. -/
inductive Expr where
  | num (value : UInt64)
  | var (name : String)
  /-- The sum of the operands, 0 if there are none. -/
  | add (operands : List Expr)
  /-- The product of the operands, 1 if there are none. -/
  | mul (operands : List Expr)
deriving Repr, Inhabited

/-- What can be wrong with the shape of an expression. -/
inductive Malformed where
  /-- A variable has the empty name. -/
  | emptyName
  /-- The operator with this symbol has no operands. -/
  | noOperands (symbol : Char)
deriving DecidableEq, Repr

namespace Expr

mutual

/-- Equality of expressions is decided node by node. -/
def decEq : (left right : Expr) → Decidable (left = right)
  | .num a, .num b => decidable_of_iff (a = b) (by simp)
  | .var a, .var b => decidable_of_iff (a = b) (by simp)
  | .add a, .add b =>
    match decEqAll a b with
    | isTrue h => isTrue (by rw [h])
    | isFalse h => isFalse (by simpa using h)
  | .mul a, .mul b =>
    match decEqAll a b with
    | isTrue h => isTrue (by rw [h])
    | isFalse h => isFalse (by simpa using h)
  | .num _, .var _ | .num _, .add _ | .num _, .mul _
  | .var _, .num _ | .var _, .add _ | .var _, .mul _
  | .add _, .num _ | .add _, .var _ | .add _, .mul _
  | .mul _, .num _ | .mul _, .var _ | .mul _, .add _ => isFalse (by simp)

/-- Equality of lists of operands. -/
def decEqAll : (left right : List Expr) → Decidable (left = right)
  | [], [] => isTrue rfl
  | a :: as, b :: bs =>
    match decEq a b, decEqAll as bs with
    | isTrue h, isTrue hs => isTrue (by rw [h, hs])
    | isFalse h, _ => isFalse (by simp [h])
    | _, isFalse hs => isFalse (by simp [hs])
  | [], _ :: _ | _ :: _, [] => isFalse (by simp)

end

instance : DecidableEq Expr := decEq

mutual

/-- The value of the expression, in saturating arithmetic. -/
def eval (lookup : String → UInt64) : Expr → UInt64
  | .num value => value
  | .var name => lookup name
  | .add operands => evalSum lookup operands
  | .mul operands => evalProduct lookup operands

/-- The sum of the values of the operands. -/
def evalSum (lookup : String → UInt64) : List Expr → UInt64
  | [] => 0
  | operand :: rest => Saturating.add (eval lookup operand) (evalSum lookup rest)

/-- The product of the values of the operands. -/
def evalProduct (lookup : String → UInt64) : List Expr → UInt64
  | [] => 1
  | operand :: rest => Saturating.mul (eval lookup operand) (evalProduct lookup rest)

end

mutual

/-- The names of the variables from left to right, repetitions included. -/
def names : Expr → List String
  | .num _ => []
  | .var name => [name]
  | .add operands => namesOfAll operands
  | .mul operands => namesOfAll operands

/-- The names of the variables of all operands. -/
def namesOfAll : List Expr → List String
  | [] => []
  | operand :: rest => names operand ++ namesOfAll rest

end

mutual

/-- The first flaw, looking at each node before its operands and at those from left to right. -/
def flaw? : Expr → Option Malformed
  | .num _ => none
  | .var name => if name = "" then some .emptyName else none
  | .add [] => some (.noOperands '+')
  | .mul [] => some (.noOperands '*')
  | .add (operand :: rest) => flaw? operand <|> flawOfAll? rest
  | .mul (operand :: rest) => flaw? operand <|> flawOfAll? rest

/-- The first flaw of the operands. -/
def flawOfAll? : List Expr → Option Malformed
  | [] => none
  | operand :: rest => flaw? operand <|> flawOfAll? rest

end

mutual

/-- The expression in writing, with parentheses around every sum and product. -/
def text : Expr → String
  | .num value => toString value.toNat
  | .var name => name
  | .add operands => "(" ++ textOfAll " + " operands ++ ")"
  | .mul operands => "(" ++ textOfAll " * " operands ++ ")"

/-- The operands in writing, with the separator between them. -/
def textOfAll (separator : String) : List Expr → String
  | [] => ""
  | [operand] => text operand
  | operand :: rest => text operand ++ separator ++ textOfAll separator rest

end

end Expr

end SearchSpace
