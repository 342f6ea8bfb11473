import SearchSpace.Expr

/-!
# The value of an expression

The value depends on the values of the variables that occur, and grows with them: capped sums and
products grow with their operands.
-/

namespace SearchSpace

namespace Saturating

variable {left left' right right' : UInt64}

theorem clamp_mono {value value' : Nat} (le : value ≤ value') : clamp value ≤ clamp value' := by
  rw [UInt64.le_iff_toNat_le, toNat_clamp, toNat_clamp]
  omega

theorem add_mono (le : left ≤ left') (le' : right ≤ right') :
    add left right ≤ add left' right' := by
  rw [UInt64.le_iff_toNat_le] at le le'
  exact clamp_mono (Nat.add_le_add le le')

theorem mul_mono (le : left ≤ left') (le' : right ≤ right') :
    mul left right ≤ mul left' right' := by
  rw [UInt64.le_iff_toNat_le] at le le'
  exact clamp_mono (Nat.mul_le_mul le le')

end Saturating

namespace Expr

variable {left right : String → UInt64}

mutual

/-- Greater values of the variables give a greater value. -/
theorem eval_mono : (tree : Expr) → (∀ name ∈ tree.names, left name ≤ right name) →
    tree.eval left ≤ tree.eval right
  | .num value, _ => by
    rw [eval, eval]
    exact UInt64.le_refl value
  | .var name, le => by
    rw [eval, eval]
    exact le name (List.mem_singleton_self name)
  | .add operands, le => by
    rw [eval, eval]
    exact evalSum_mono operands le
  | .mul operands, le => by
    rw [eval, eval]
    exact evalProduct_mono operands le

theorem evalSum_mono : (operands : List Expr) →
    (∀ name ∈ namesOfAll operands, left name ≤ right name) →
    evalSum left operands ≤ evalSum right operands
  | [], _ => by
    rw [evalSum, evalSum]
    exact UInt64.le_refl 0
  | operand :: rest, le => by
    rw [namesOfAll, List.forall_mem_append] at le
    rw [evalSum, evalSum]
    exact Saturating.add_mono (eval_mono operand le.1) (evalSum_mono rest le.2)

theorem evalProduct_mono : (operands : List Expr) →
    (∀ name ∈ namesOfAll operands, left name ≤ right name) →
    evalProduct left operands ≤ evalProduct right operands
  | [], _ => by
    rw [evalProduct, evalProduct]
    exact UInt64.le_refl 1
  | operand :: rest, le => by
    rw [namesOfAll, List.forall_mem_append] at le
    rw [evalProduct, evalProduct]
    exact Saturating.mul_mono (eval_mono operand le.1) (evalProduct_mono rest le.2)

end

/-- Only the variables that occur matter. -/
theorem eval_congr {tree : Expr} (same : ∀ name ∈ tree.names, left name = right name) :
    tree.eval left = tree.eval right := by
  apply UInt64.le_antisymm
  · apply eval_mono
    intro name member
    rw [same name member]
    exact UInt64.le_refl _
  · apply eval_mono
    intro name member
    rw [same name member]
    exact UInt64.le_refl _

end Expr

end SearchSpace
