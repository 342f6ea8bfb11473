import SearchSpace.Expr

/-!
# The nodes of an expression

An expression is looked through from the top down and from left to right. What is reported as its
flaw is what is wrong with the first node that has anything wrong with it.
-/

namespace SearchSpace.Expr

mutual

/-- The nodes, each before its operands and those from left to right. -/
def nodes : Expr → List Expr
  | .num value => [.num value]
  | .var name => [.var name]
  | .add operands => .add operands :: nodesOfAll operands
  | .mul operands => .mul operands :: nodesOfAll operands

/-- The nodes of all operands. -/
def nodesOfAll : List Expr → List Expr
  | [] => []
  | operand :: rest => nodes operand ++ nodesOfAll rest

end

/-- The node by itself has this flaw. -/
inductive Offends : Expr → Malformed → Prop
  | emptyName : Offends (.var "") .emptyName
  | emptySum : Offends (.add []) (.noOperands '+')
  | emptyProduct : Offends (.mul []) (.noOperands '*')

/-- No node has a flaw. -/
def Sound (tree : Expr) : Prop :=
  ∀ node ∈ tree.nodes, ∀ flaw, ¬node.Offends flaw

/-- The first node that has a flaw has this one. -/
def FirstFlaw (tree : Expr) (flaw : Malformed) : Prop :=
  ∃ before node after, tree.nodes = before ++ node :: after ∧
    (∀ earlier ∈ before, ∀ flaw, ¬earlier.Offends flaw) ∧ node.Offends flaw

/-- The flaw of the node by itself. -/
def flawHere? : Expr → Option Malformed
  | .num _ => none
  | .var name => if name = "" then some .emptyName else none
  | .add operands => if operands = [] then some (.noOperands '+') else none
  | .mul operands => if operands = [] then some (.noOperands '*') else none

variable {tree node : Expr} {flaw : Malformed} {name : String}

theorem flawHere?_eq_some_iff : node.flawHere? = some flaw ↔ node.Offends flaw := by
  constructor
  · intro found
    cases node with
    | num value => cases found
    | var name =>
      obtain ⟨rfl, rfl⟩ : name = "" ∧ .emptyName = flaw := by simpa [flawHere?] using found
      exact .emptyName
    | add operands =>
      obtain ⟨rfl, rfl⟩ : operands = [] ∧ .noOperands '+' = flaw := by
        simpa [flawHere?] using found
      exact .emptySum
    | mul operands =>
      obtain ⟨rfl, rfl⟩ : operands = [] ∧ .noOperands '*' = flaw := by
        simpa [flawHere?] using found
      exact .emptyProduct
  · rintro (_ | _ | _) <;> rfl

theorem flawHere?_eq_none_iff : node.flawHere? = none ↔ ∀ flaw, ¬node.Offends flaw := by
  rw [Option.eq_none_iff_forall_ne_some]
  exact forall_congr' fun flaw => not_congr flawHere?_eq_some_iff

mutual

/-- The flaw of an expression is that of its first node that has one. -/
theorem flaw?_eq : (tree : Expr) → tree.flaw? = tree.nodes.findSome? flawHere?
  | .num _ => rfl
  | .var name => by
    rw [flaw?, nodes, List.findSome?_singleton, flawHere?]
  | .add [] => rfl
  | .mul [] => rfl
  | .add (operand :: rest) => by
    rw [flaw?, nodes, List.findSome?_cons_of_isNone rfl]
    exact flawOfAll?_eq (operand :: rest)
  | .mul (operand :: rest) => by
    rw [flaw?, nodes, List.findSome?_cons_of_isNone rfl]
    exact flawOfAll?_eq (operand :: rest)

theorem flawOfAll?_eq : (operands : List Expr) →
    flawOfAll? operands = (nodesOfAll operands).findSome? flawHere?
  | [] => rfl
  | operand :: rest => by
    rw [flawOfAll?, nodesOfAll, List.findSome?_append, flaw?_eq operand, flawOfAll?_eq rest]
    exact Option.orElse_eq_or

end

theorem flaw?_eq_none_iff : tree.flaw? = none ↔ tree.Sound := by
  rw [flaw?_eq, List.findSome?_eq_none_iff]
  exact forall₂_congr fun node _ => flawHere?_eq_none_iff

theorem flaw?_eq_some_iff : tree.flaw? = some flaw ↔ tree.FirstFlaw flaw := by
  simp only [flaw?_eq, List.findSome?_eq_some_iff, flawHere?_eq_some_iff, flawHere?_eq_none_iff]
  constructor
  · rintro ⟨before, node, after, split, offends, sound⟩
    exact ⟨before, node, after, split, sound, offends⟩
  · rintro ⟨before, node, after, split, sound, offends⟩
    exact ⟨before, node, after, split, offends, sound⟩

theorem FirstFlaw.not_sound (first : tree.FirstFlaw flaw) : ¬tree.Sound := by
  rw [← flaw?_eq_none_iff, flaw?_eq_some_iff.2 first]
  exact Option.some_ne_none flaw

/-- The three shapes that no node of a sound expression has. -/
theorem sound_iff : tree.Sound ↔
    .add [] ∉ tree.nodes ∧ .mul [] ∉ tree.nodes ∧ .var "" ∉ tree.nodes := by
  constructor
  · intro sound
    exact ⟨fun member => sound _ member _ .emptySum, fun member => sound _ member _ .emptyProduct,
      fun member => sound _ member _ .emptyName⟩
  · rintro ⟨noSum, noProduct, noVariable⟩ node member flaw offends
    cases offends with
    | emptyName => exact noVariable member
    | emptySum => exact noSum member
    | emptyProduct => exact noProduct member

mutual

/-- The variables of an expression are those among its nodes. -/
theorem mem_names_iff : (tree : Expr) → (name ∈ tree.names ↔ .var name ∈ tree.nodes)
  | .num _ => by simp [names, nodes]
  | .var _ => by simp [names, nodes]
  | .add operands => by simpa [names, nodes] using mem_namesOfAll_iff operands
  | .mul operands => by simpa [names, nodes] using mem_namesOfAll_iff operands

theorem mem_namesOfAll_iff : (operands : List Expr) →
    (name ∈ namesOfAll operands ↔ .var name ∈ nodesOfAll operands)
  | [] => by simp [namesOfAll, nodesOfAll]
  | operand :: rest => by
    rw [namesOfAll, nodesOfAll, List.mem_append, List.mem_append, mem_names_iff operand,
      mem_namesOfAll_iff rest]

end

end SearchSpace.Expr
