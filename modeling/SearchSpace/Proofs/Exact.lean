import Mathlib.Algebra.BigOperators.Group.List.Basic
import Mathlib.Algebra.GroupWithZero.Nat
import SearchSpace.Proofs.Puzzle.Completion

/-!
# Exact values

The exact value of an expression is taken over the natural numbers, where nothing is capped.
Saturating arithmetic caps every sum and every product on the way, and that comes to capping the
exact value once at the end: what was capped stays at the cap in any sum, and in any product but for
a factor zero, to which it does not matter how great the other factors were.
-/

namespace SearchSpace

namespace Saturating

theorem clamp_toNat (value : UInt64) : clamp value.toNat = value := by
  have le : value.toNat ≤ greatest := Nat.le_pred_of_lt value.toNat_lt
  rw [← UInt64.toNat_inj, toNat_clamp, Nat.min_eq_left le]

theorem add_clamp (left right : Nat) : add (clamp left) (clamp right) = clamp (left + right) := by
  rw [← UInt64.toNat_inj, toNat_add, toNat_clamp, toNat_clamp, toNat_clamp]
  omega

/-- Capping a factor changes nothing below the cap: unless the other factor is zero, the product is
no less than what was capped. -/
theorem min_mul_min (left right cap : Nat) :
    min (min left cap * right) cap = min (left * right) cap := by
  rcases Nat.eq_zero_or_pos right with rfl | positive
  · rw [Nat.mul_zero, Nat.mul_zero]
  rcases Nat.le_total left cap with small | large
  · rw [Nat.min_eq_left small]
  · have capped : cap ≤ cap * right := Nat.le_mul_of_pos_right cap positive
    have whole : cap ≤ left * right := Nat.le_trans capped (Nat.mul_le_mul_right right large)
    rw [Nat.min_eq_right large, Nat.min_eq_right capped, Nat.min_eq_right whole]

theorem mul_clamp (left right : Nat) : mul (clamp left) (clamp right) = clamp (left * right) := by
  rw [← UInt64.toNat_inj, toNat_mul, toNat_clamp, toNat_clamp, toNat_clamp, min_mul_min,
    Nat.mul_comm, min_mul_min, Nat.mul_comm]

/-- A capped value is a given number if it is that number, or if it was capped and the number is the
greatest one. -/
theorem clamp_eq_iff {value : Nat} {number : UInt64} : clamp value = number ↔
    number.toNat < greatest ∧ value = number.toNat ∨
      number.toNat = greatest ∧ greatest ≤ value := by
  rw [← UInt64.toNat_inj, toNat_clamp]
  omega

end Saturating

namespace Expr

open Saturating (clamp)

mutual

/-- The value of the expression over the natural numbers. -/
def exact (lookup : String → Nat) : Expr → Nat
  | .num value => value.toNat
  | .var name => lookup name
  | .add operands => exactSum lookup operands
  | .mul operands => exactProduct lookup operands

/-- The sum of the exact values of the operands. -/
def exactSum (lookup : String → Nat) : List Expr → Nat
  | [] => 0
  | operand :: rest => exact lookup operand + exactSum lookup rest

/-- The product of the exact values of the operands. -/
def exactProduct (lookup : String → Nat) : List Expr → Nat
  | [] => 1
  | operand :: rest => exact lookup operand * exactProduct lookup rest

end

theorem exact_add (lookup : String → Nat) (operands : List Expr) :
    (Expr.add operands).exact lookup = (operands.map (exact lookup)).sum := by
  rw [exact]
  induction operands with
  | nil => rfl
  | cons operand rest ih => rw [exactSum, ih, List.map_cons, List.sum_cons]

theorem exact_mul (lookup : String → Nat) (operands : List Expr) :
    (Expr.mul operands).exact lookup = (operands.map (exact lookup)).prod := by
  rw [exact]
  induction operands with
  | nil => rfl
  | cons operand rest ih => rw [exactProduct, ih, List.map_cons, List.prod_cons]

variable (lookup : String → UInt64)

mutual

/-- The value is the exact one, capped. -/
theorem eval_eq_clamp : (tree : Expr) →
    tree.eval lookup = clamp (tree.exact fun name => (lookup name).toNat)
  | .num value => by
    rw [eval, exact, Saturating.clamp_toNat]
  | .var name => by
    rw [eval, exact, Saturating.clamp_toNat]
  | .add operands => by
    rw [eval, exact, evalSum_eq_clamp operands]
  | .mul operands => by
    rw [eval, exact, evalProduct_eq_clamp operands]

theorem evalSum_eq_clamp : (operands : List Expr) →
    evalSum lookup operands = clamp (exactSum (fun name => (lookup name).toNat) operands)
  | [] => rfl
  | operand :: rest => by
    rw [evalSum, exactSum, eval_eq_clamp operand, evalSum_eq_clamp rest, Saturating.add_clamp]

theorem evalProduct_eq_clamp : (operands : List Expr) →
    evalProduct lookup operands = clamp (exactProduct (fun name => (lookup name).toNat) operands)
  | [] => rfl
  | operand :: rest => by
    rw [evalProduct, exactProduct, eval_eq_clamp operand, evalProduct_eq_clamp rest,
      Saturating.mul_clamp]

end

/-- Adding up from the left with a cap after each operand comes to a cap at the end. -/
theorem foldl_add_clamp (total : Nat) (operands : List Expr) :
    operands.foldl (fun sum operand => Saturating.add sum (operand.eval lookup)) (clamp total) =
      clamp (total + (operands.map (exact fun name => (lookup name).toNat)).sum) := by
  induction operands generalizing total with
  | nil => rfl
  | cons operand rest ih =>
    rw [List.foldl_cons, eval_eq_clamp, Saturating.add_clamp, ih, List.map_cons, List.sum_cons,
      Nat.add_assoc]

/-- Multiplying from the left with a cap after each operand comes to a cap at the end. -/
theorem foldl_mul_clamp (total : Nat) (operands : List Expr) :
    operands.foldl (fun product operand => Saturating.mul product (operand.eval lookup))
        (clamp total) =
      clamp (total * (operands.map (exact fun name => (lookup name).toNat)).prod) := by
  induction operands generalizing total with
  | nil => rw [List.foldl_nil, List.map_nil, List.prod_nil, Nat.mul_one]
  | cons operand rest ih =>
    rw [List.foldl_cons, eval_eq_clamp, Saturating.mul_clamp, ih, List.map_cons, List.prod_cons,
      Nat.mul_assoc]

/-- A sum is its operands added up from left to right. -/
theorem eval_add_eq_foldl (operands : List Expr) : (Expr.add operands).eval lookup =
    operands.foldl (fun sum operand => Saturating.add sum (operand.eval lookup)) 0 := by
  have folded := foldl_add_clamp lookup 0 operands
  rw [Nat.zero_add, ← exact_add, ← eval_eq_clamp] at folded
  exact folded.symm

/-- A product is its operands multiplied from left to right. -/
theorem eval_mul_eq_foldl (operands : List Expr) : (Expr.mul operands).eval lookup =
    operands.foldl (fun product operand => Saturating.mul product (operand.eval lookup)) 1 := by
  have folded := foldl_mul_clamp lookup 1 operands
  rw [Nat.one_mul, ← exact_mul, ← eval_eq_clamp] at folded
  exact folded.symm

end Expr

end SearchSpace

namespace SearchSpace.Puzzle

variable {puzzle : Puzzle}

/-- The exact value of the expression of a puzzle under its assignment. -/
def exactValue (puzzle : Puzzle) : Nat :=
  puzzle.tree.exact fun name => (puzzle.valueOf name).toNat

theorem valueUnder_valueOf_eq_clamp (puzzle : Puzzle) :
    puzzle.valueUnder puzzle.valueOf = Saturating.clamp puzzle.exactValue := by
  simp only [valueUnder, exactValue, Expr.eval_eq_clamp, UInt8.toNat_toUInt64]

end SearchSpace.Puzzle

namespace SearchSpace

/-- An expression takes its exact value, or the greatest 64-bit number where that is less, although
each operator caps what it adds up or multiplies from left to right. So a puzzle is solved exactly
if all variables have digits and the exact value is the target, or no less than the target if that
is the greatest number. -/
theorem eval_eq_capped_exact :
    (∀ (tree : Expr) (lookup : String → UInt64),
      (tree.eval lookup).toNat = min (tree.exact fun name => (lookup name).toNat) (2 ^ 64 - 1)) ∧
    (∀ (operands : List Expr) (lookup : String → UInt64),
      (Expr.add operands).eval lookup =
        operands.foldl (fun sum operand => Saturating.add sum (operand.eval lookup)) 0 ∧
      (Expr.mul operands).eval lookup =
        operands.foldl (fun product operand => Saturating.mul product (operand.eval lookup)) 1) ∧
    ∀ puzzle : Puzzle, puzzle.Built →
      (puzzle.isSolved = true ↔
        (∀ name ∈ puzzle.tree.names, puzzle.valueOf name ≠ Puzzle.unassigned) ∧
        (puzzle.target.toNat < 2 ^ 64 - 1 ∧ puzzle.exactValue = puzzle.target.toNat ∨
          puzzle.target.toNat = 2 ^ 64 - 1 ∧ 2 ^ 64 - 1 ≤ puzzle.exactValue)) := by
  refine ⟨fun tree lookup => ?_, fun operands lookup => ⟨?_, ?_⟩, fun puzzle built => ?_⟩
  · rw [Expr.eval_eq_clamp, Saturating.toNat_clamp]
    rfl
  · exact Expr.eval_add_eq_foldl lookup operands
  · exact Expr.eval_mul_eq_foldl lookup operands
  · have wellFormed := Puzzle.WellFormed.of_built built
    rw [Puzzle.isSolved_iff wellFormed, wellFormed.openVariables_eq_nil_iff,
      Puzzle.valueUnder_valueOf_eq_clamp, Saturating.clamp_eq_iff]
    rfl

/-- A variable with a digit that is multiplied beyond the cap, and by zero in another place. -/
def Puzzle.overflow : Puzzle where
  tree := .add [.mul [.var "a", .num 9223372036854775808], .mul [.num 0, .num 5, .var "a"]]
  assignment := ⟨[("a", 9)], by decide⟩
  target := 18446744073709551615

theorem eval_eq_capped_exact_overflow : Puzzle.overflow.Built ∧
    (Puzzle.overflow.tree.eval fun _ => 9).toNat = 2 ^ 64 - 1 ∧
    2 ^ 64 - 1 < Puzzle.overflow.exactValue ∧ Puzzle.overflow.isSolved = true := by
  have created : Puzzle.create Puzzle.overflow.tree Puzzle.overflow.target
      Puzzle.overflow.assignment = .ok Puzzle.overflow := rfl
  have built : Puzzle.overflow.Built := .create created
  have exceeds : 2 ^ 64 - 1 < Puzzle.overflow.exactValue := by decide
  obtain ⟨value, -, solved⟩ := eval_eq_capped_exact
  refine ⟨built, ?_, exceeds, (solved _ built).2 ⟨by decide, .inr ⟨rfl, Nat.le_of_lt exceeds⟩⟩⟩
  rw [value]
  rfl

end SearchSpace
