import SearchSpace.Document.Expr
import SearchSpace.Proofs.Json.Accepted
import SearchSpace.Proofs.Json.Reader

/-!
# Expressions are read as they were written

An operator takes two levels of lists and objects: one for the node and one for its operands. A
written expression is read where that many may be entered, and an expression that has been read
needs no more than that.
-/

namespace SearchSpace

open Json (ReadError Reader Reads)

variable {steps nesting : Nat} {text rest : List Char}

theorem reads_uint64 (expected : String) (value : UInt64) :
    Reads steps nesting (readUInt64 expected) (.number value.toNat) value := by
  have small : value.toNat < UInt64.size := value.toNat_lt
  have number : Reads steps nesting (Json.readNatural expected UInt64.size) (.number value.toNat)
      value.toNat := Json.reads_natural small small
  have reads := number.map UInt64.ofNat
  rwa [UInt64.ofNat_toNat] at reads

namespace Expr

variable {tree : Expr} {operands : List Expr} {kind : String} {written : Json.Value}

theorem allToJson_eq_map (operands : List Expr) : allToJson operands = operands.map toJson := by
  induction operands with
  | nil => rw [allToJson, List.map_nil]
  | cons operand rest ih => rw [allToJson, List.map_cons, ih]

/-- The reader of the operands of a node within which lists and objects may be entered. -/
def operandReader? (steps : Nat) : Nat → Option (Reader Expr)
  | 0 => none
  | nesting + 1 => some (read steps nesting)

theorem read_succ (steps nesting : Nat) : read steps (nesting + 1) =
    Json.readVariant kinds (some (readContent steps (operandReader? steps nesting)))
      withoutContent := by
  cases nesting <;> rw [read, operandReader?]

/-! ## Written expressions -/

/-- A node is read if its content is. -/
theorem reads_node (isKind : kinds.contains kind = true)
    (reads : ∀ nesting,
      Reads steps nesting (readContent steps (operandReader? steps nesting) kind) written tree)
    (nesting : Nat) :
    Reads steps nesting (read steps nesting) (.object [(kind, written)]) tree := by
  cases nesting with
  | zero =>
    unfold read
    exact Json.reads_variant_none
  | succ nesting =>
    rw [read_succ]
    exact Json.reads_variant isKind (reads nesting)

theorem reads_operands
    (reads : ∀ nesting, ∀ operand ∈ operands,
      Reads steps nesting (read steps nesting) operand.toJson operand)
    (nesting : Nat) :
    Reads steps nesting (Json.readList steps (operandReader? steps nesting))
      (.list (allToJson operands)) operands := by
  rw [allToJson_eq_map]
  cases nesting with
  | zero => exact Json.reads_list_none _ operands
  | succ nesting => exact Json.reads_list (reads nesting)

mutual

theorem reads_toJson (steps : Nat) : (tree : Expr) → ∀ nesting,
    Reads steps nesting (read steps nesting) tree.toJson tree
  | .num value => reads_node (by decide) fun _ => (reads_uint64 "u64" value).map Expr.num
  | .var name => reads_node (by decide) fun _ => (Json.reads_text "a string" name).map Expr.var
  | .add operands => by
    have reads := reads_operands (reads_allToJson steps operands)
    exact reads_node (by decide) fun nesting => (reads nesting).map Expr.add
  | .mul operands => by
    have reads := reads_operands (reads_allToJson steps operands)
    exact reads_node (by decide) fun nesting => (reads nesting).map Expr.mul

theorem reads_allToJson (steps : Nat) : (operands : List Expr) → ∀ nesting,
    ∀ operand ∈ operands, Reads steps nesting (read steps nesting) operand.toJson operand
  | [], _ => by simp
  | operand :: rest, nesting =>
    List.forall_mem_cons.2 ⟨reads_toJson steps operand nesting, reads_allToJson steps rest nesting⟩

end

/-! ## Expressions that have been read -/

theorem depth_toJson_pos (tree : Expr) : 0 < tree.toJson.depth := by
  cases tree <;> simp only [toJson, Json.Value.depth] <;> exact Nat.succ_pos _

theorem depth_allToJson_le {n : Nat} (shallow : ∀ operand ∈ operands, operand.toJson.depth ≤ n) :
    (Json.Value.list (allToJson operands)).depth ≤ n + 1 := by
  rw [Json.Value.depth, allToJson_eq_map]
  refine Nat.succ_le_succ (Json.Value.depthOfElements_le ?_)
  intro element member
  obtain ⟨operand, isOperand, rfl⟩ := List.mem_map.1 member
  exact shallow operand isOperand

theorem depth_operands_le
    (ih : ∀ inner < nesting, ∀ text tree rest,
      read steps inner text = .ok (tree, rest) → tree.toJson.depth ≤ inner)
    (isRead : Json.readList steps (operandReader? steps nesting) text = .ok (operands, rest)) :
    (Json.Value.list (allToJson operands)).depth ≤ nesting := by
  obtain ⟨reader, eq, reads⟩ := Json.exists_of_readList isRead
  cases nesting with
  | zero => cases eq
  | succ inner =>
    cases eq
    apply depth_allToJson_le
    intro operand member
    obtain ⟨text, rest, readOperand⟩ := reads operand member
    exact ih inner (Nat.lt_succ_self inner) text operand rest readOperand

theorem depth_content_le
    (ih : ∀ inner < nesting, ∀ text tree rest,
      read steps inner text = .ok (tree, rest) → tree.toJson.depth ≤ inner)
    (isRead : readContent steps (operandReader? steps nesting) kind text = .ok (tree, rest)) :
    tree.toJson.depth ≤ nesting + 1 := by
  unfold readContent at isRead
  split at isRead
  all_goals obtain ⟨⟨content, rest⟩, readContent, isRead⟩ := Json.exists_of_bind_eq_ok isRead
  all_goals cases isRead
  case h_1 | h_2 => simp [toJson, Json.Value.depth, Json.Value.depthOfEntries]
  case h_3 | h_4 =>
    have shallow := depth_operands_le ih readContent
    rw [toJson, Json.Value.depth, Json.Value.depthOfEntries, Json.Value.depthOfEntries,
      Nat.max_zero]
    exact Nat.succ_le_succ shallow

/-- No more lists and objects lie within one another than may be entered. -/
theorem depth_toJson_le (isRead : read steps nesting text = .ok (tree, rest)) :
    tree.toJson.depth ≤ nesting := by
  induction nesting using Nat.strongRecOn generalizing text tree rest with
  | ind nesting ih =>
    cases nesting with
    | zero =>
      unfold read at isRead
      obtain ⟨_, _, _, _, none, _⟩ | ⟨_, mere⟩ := Json.exists_of_readVariant isRead
      · cases none
      · cases mere
    | succ nesting =>
      rw [read_succ] at isRead
      obtain ⟨_, kind, text, rest, eq, readContent⟩ | ⟨_, mere⟩ := Json.exists_of_readVariant isRead
      · cases eq
        have shallow : ∀ inner < nesting, ∀ text tree rest,
            read steps inner text = .ok (tree, rest) → tree.toJson.depth ≤ inner := by
          intro inner less text tree rest isRead
          exact ih inner (Nat.lt_succ_of_lt less) isRead
        exact depth_content_le shallow readContent
      · cases mere

end Expr

end SearchSpace
