import Mathlib.Logic.Relation
import SearchSpace.Proofs.Puzzle.Completion

/-!
# The bounds of a puzzle and when it is given up

A step gives an open variable a digit, which is neither less than the least nor greater than the
greatest one. So the bounds can only narrow, and a target that lies outside of them stays outside. A
puzzle without open variables has one value left and is given up if that is not the target.
-/

namespace SearchSpace.Puzzle

variable {puzzle next : Puzzle} {name : String} {value fill : UInt8}

/-- Steps lead from one puzzle to the other. -/
def Reaches : Puzzle → Puzzle → Prop :=
  Relation.ReflTransGen fun state next => next ∈ state.successors

theorem filledValue_of_isOpen (isOpen : name ∈ puzzle.openVariables) (fill : UInt8) :
    puzzle.filledValue fill name = fill.toUInt64 := by
  rw [filledValue_eq, if_pos (mem_openVariables.1 isOpen).2]

theorem filledValue_setVariable (assigned : value ≠ unassigned) (fill : UInt8) (other : String) :
    (puzzle.setVariable name value).filledValue fill other =
      if other = name then value.toUInt64 else puzzle.filledValue fill other := by
  rw [filledValue_eq, valueOf_setVariable]
  by_cases same : other = name
  · simp [same, assigned]
  · simp [same, filledValue_eq]

/-- The least value can only grow. -/
theorem least_le_of_mem_successors (successor : next ∈ puzzle.successors) :
    puzzle.valueFilling leastDigit ≤ next.valueFilling leastDigit := by
  obtain ⟨name, isOpen, value, digit, rfl⟩ := mem_successors.1 successor
  have within := mem_digits.1 digit
  apply Expr.eval_mono
  intro other _
  rw [filledValue_setVariable (ne_unassigned_of_le within.1)]
  by_cases same : other = name
  · subst same
    rw [if_pos rfl, filledValue_of_isOpen isOpen]
    exact toUInt64_mono within.1
  · rw [if_neg same]
    exact UInt64.le_refl _

/-- The greatest value can only become less. -/
theorem greatest_le_of_mem_successors (successor : next ∈ puzzle.successors) :
    next.valueFilling greatestDigit ≤ puzzle.valueFilling greatestDigit := by
  obtain ⟨name, isOpen, value, digit, rfl⟩ := mem_successors.1 successor
  have within := mem_digits.1 digit
  apply Expr.eval_mono
  intro other _
  rw [filledValue_setVariable (ne_unassigned_of_le within.1)]
  by_cases same : other = name
  · subst same
    rw [if_pos rfl, filledValue_of_isOpen isOpen]
    exact toUInt64_mono within.2
  · rw [if_neg same]
    exact UInt64.le_refl _

theorem target_of_mem_successors (successor : next ∈ puzzle.successors) :
    next.target = puzzle.target := by
  obtain ⟨name, -, value, -, rfl⟩ := mem_successors.1 successor
  rfl

theorem successors_eq_nil (closed : puzzle.openVariables = []) : puzzle.successors = [] := by
  rw [successors, closed, List.flatMap_nil]

theorem isDeadEnd_iff : puzzle.isDeadEnd = true ↔
    puzzle.target < puzzle.valueFilling leastDigit ∨
    puzzle.valueFilling greatestDigit < puzzle.target ∨
    puzzle.openVariables = [] ∧ puzzle.valueFilling leastDigit ≠ puzzle.target := by
  unfold isDeadEnd bounds
  dsimp only
  simp [or_assoc]

/-- What is given up stays given up. -/
theorem isDeadEnd_of_mem_successors (deadEnd : puzzle.isDeadEnd = true)
    (successor : next ∈ puzzle.successors) : next.isDeadEnd = true := by
  have least := least_le_of_mem_successors successor
  have greatest := greatest_le_of_mem_successors successor
  rw [isDeadEnd_iff, target_of_mem_successors successor]
  rcases isDeadEnd_iff.1 deadEnd with below | above | ⟨closed, -⟩
  · exact .inl (UInt64.lt_of_lt_of_le below least)
  · exact .inr (.inl (UInt64.lt_of_le_of_lt greatest above))
  · rw [successors_eq_nil closed] at successor
    cases successor

/-- Without open variables a puzzle is given up unless it is solved. -/
theorem isDeadEnd_eq_not_isSolved (wellFormed : puzzle.WellFormed)
    (closed : puzzle.openVariables = []) : puzzle.isDeadEnd = !puzzle.isSolved := by
  have one (fill : UInt8) : puzzle.valueFilling fill = puzzle.valueFilling unassigned := by
    rw [valueFilling_eq_valueUnder wellFormed closed, valueFilling_eq_valueUnder wellFormed closed]
  rw [Bool.eq_iff_iff, isDeadEnd_iff, one leastDigit, one greatestDigit]
  simp only [isSolved, closed, List.isEmpty_nil, Bool.true_and, Bool.not_eq_true',
    beq_eq_false_iff_ne, true_and]
  constructor
  · rintro (below | above | differ)
    · exact (UInt64.ne_of_lt below).symm
    · exact UInt64.ne_of_lt above
    · exact differ
  · intro differ
    exact .inr (.inr differ)

theorem isSolved_eq_false_of_isDeadEnd (wellFormed : puzzle.WellFormed)
    (deadEnd : puzzle.isDeadEnd = true) : puzzle.isSolved = false := by
  by_cases closed : puzzle.openVariables = []
  · rw [isDeadEnd_eq_not_isSolved wellFormed closed] at deadEnd
    simpa using deadEnd
  · simp [isSolved, closed]

/-- Steps keep a puzzle well formed, and given up if it was. -/
theorem Reaches.keeps (reaches : puzzle.Reaches next) (wellFormed : puzzle.WellFormed)
    (deadEnd : puzzle.isDeadEnd = true) : next.WellFormed ∧ next.isDeadEnd = true := by
  induction reaches with
  | refl => exact ⟨wellFormed, deadEnd⟩
  | tail _ successor ih =>
    have ⟨wellFormed', deadEnd'⟩ := ih
    exact ⟨wellFormed'.successor successor, isDeadEnd_of_mem_successors deadEnd' successor⟩

/-- A puzzle that is given up is not solved, and neither are the puzzles that steps lead to, which
are given up as well. The bounds after a step lie within those before it. A puzzle without open
variables is given up exactly if it is not solved. -/
theorem isDeadEnd_sound (built : puzzle.Built) :
    (puzzle.isDeadEnd = true →
      puzzle.isSolved = false ∧
      (∀ other, puzzle.Reaches other → other.isSolved = false) ∧
      ∀ next ∈ puzzle.successors, next.isDeadEnd = true) ∧
    (∀ next ∈ puzzle.successors,
      puzzle.bounds.1 ≤ next.bounds.1 ∧ next.bounds.2 ≤ puzzle.bounds.2) ∧
    (puzzle.openVariables = [] → puzzle.isDeadEnd = !puzzle.isSolved) := by
  have wellFormed := WellFormed.of_built built
  refine ⟨fun deadEnd => ⟨?_, ?_, ?_⟩, ?_, ?_⟩
  · exact isSolved_eq_false_of_isDeadEnd wellFormed deadEnd
  · intro other reaches
    have ⟨wellFormed', deadEnd'⟩ := reaches.keeps wellFormed deadEnd
    exact isSolved_eq_false_of_isDeadEnd wellFormed' deadEnd'
  · intro next successor
    exact isDeadEnd_of_mem_successors deadEnd successor
  · intro next successor
    exact ⟨least_le_of_mem_successors successor, greatest_le_of_mem_successors successor⟩
  · intro closed
    exact isDeadEnd_eq_not_isSolved wellFormed closed

/-- A variable that is multiplied by zero in one place and added in another: the least value is
1. -/
def zeroFactor : Puzzle where
  tree := .add [.mul [.var "x", .num 0], .var "x"]
  assignment := ⟨[("x", 0)], by decide⟩
  target := 0

theorem isDeadEnd_sound_zeroFactor : zeroFactor.Built ∧ zeroFactor.isDeadEnd = true ∧
    (∀ other, zeroFactor.Reaches other → other.isSolved = false) ∧
    ∀ next ∈ zeroFactor.successors, next.isDeadEnd = true ∧ next.bounds.2 ≤ 9 := by
  have created : create zeroFactor.tree zeroFactor.target ∅ = .ok zeroFactor := rfl
  have built : zeroFactor.Built := .create created
  have deadEnd : zeroFactor.isDeadEnd = true := rfl
  obtain ⟨given, narrower, -⟩ := isDeadEnd_sound built
  obtain ⟨-, never, still⟩ := given deadEnd
  exact ⟨built, deadEnd, never, fun next successor =>
    ⟨still next successor, (narrower next successor).2⟩⟩

end SearchSpace.Puzzle
