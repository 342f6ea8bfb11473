import SearchSpace.Proofs.Puzzle.Bounds

/-!
# The extremes of a puzzle

Giving one and the same digit to all open variables, one step after another, leads to a completion
whose value is that of the puzzle filled with the digit. So the bounds, which hold for every
completion, are themselves values of completions that steps lead to.
-/

namespace SearchSpace.Puzzle

variable {puzzle other : Puzzle} {name : String} {value : UInt8}

theorem Reaches.extends (reaches : puzzle.Reaches other) : puzzle.Extends other := by
  induction reaches with
  | refl => exact .refl puzzle
  | tail _ successor extended => exact extended.successor successor

theorem Reaches.wellFormed (reaches : puzzle.Reaches other) (wellFormed : puzzle.WellFormed) :
    other.WellFormed := by
  induction reaches with
  | refl => exact wellFormed
  | tail _ successor ih => exact ih.successor successor

/-- Filling with a digit comes to the same after an open variable got that digit. -/
theorem valueFilling_setVariable (isOpen : name ∈ puzzle.openVariables)
    (assigned : value ≠ unassigned) :
    (puzzle.setVariable name value).valueFilling value = puzzle.valueFilling value := by
  apply Expr.eval_congr
  intro other _
  rw [filledValue_setVariable assigned]
  by_cases same : other = name
  · rw [if_pos same, same, filledValue_of_isOpen isOpen]
  · rw [if_neg same]

/-- Steps lead to a puzzle in which all variables that were open have the digit. -/
theorem exists_reaches_closed (puzzle : Puzzle) (digit : value ∈ digits) :
    ∃ filled, puzzle.Reaches filled ∧ filled.openVariables = [] ∧
      filled.valueFilling value = puzzle.valueFilling value := by
  have assigned := ne_unassigned_of_le (mem_digits.1 digit).1
  generalize names : puzzle.openVariables = listed
  induction listed generalizing puzzle with
  | nil => exact ⟨puzzle, .refl, names, rfl⟩
  | cons name rest ih =>
    have isOpen : name ∈ puzzle.openVariables := by simp [names]
    have successor : puzzle.setVariable name value ∈ puzzle.successors :=
      mem_successors.2 ⟨name, isOpen, value, digit, rfl⟩
    obtain ⟨filled, reaches, closed, same⟩ :=
      ih (puzzle.setVariable name value) (openVariables_setVariable_first names assigned)
    refine ⟨filled, .head successor reaches, closed, ?_⟩
    rw [same, valueFilling_setVariable isOpen assigned]

/-- The value of the puzzle filled with a digit is that of a completion that steps lead to. -/
theorem WellFormed.exists_completion (wellFormed : puzzle.WellFormed) (digit : value ∈ digits) :
    ∃ filled, puzzle.Reaches filled ∧ puzzle.Completion filled.valueOf ∧
      puzzle.valueUnder filled.valueOf = puzzle.valueFilling value := by
  obtain ⟨filled, reaches, closed, same⟩ := exists_reaches_closed puzzle digit
  have extended := reaches.extends
  have wellFormed' := reaches.wellFormed wellFormed
  refine ⟨filled, reaches, extended.completion wellFormed' closed, ?_⟩
  rw [← same, valueFilling_eq_valueUnder wellFormed' closed, valueUnder, valueUnder,
    extended.tree_eq]

/-- The value of every completion lies within the bounds, and steps lead to completions that take
the least and the greatest value. -/
theorem bounds_tight (built : puzzle.Built) :
    (∀ values, puzzle.Completion values →
      puzzle.bounds.1 ≤ puzzle.valueUnder values ∧ puzzle.valueUnder values ≤ puzzle.bounds.2) ∧
    (∃ least, puzzle.Reaches least ∧ puzzle.Completion least.valueOf ∧
      puzzle.valueUnder least.valueOf = puzzle.bounds.1) ∧
    ∃ greatest, puzzle.Reaches greatest ∧ puzzle.Completion greatest.valueOf ∧
      puzzle.valueUnder greatest.valueOf = puzzle.bounds.2 := by
  have wellFormed := WellFormed.of_built built
  refine ⟨fun values completion => ⟨completion.least_le, completion.le_greatest⟩, ?_, ?_⟩
  · exact wellFormed.exists_completion (by decide : leastDigit ∈ digits)
  · exact wellFormed.exists_completion (by decide : greatestDigit ∈ digits)

/-- One variable is open and occurs twice, once under a factor zero; the other one has a digit. The
greatest value is capped. -/
def steep : Puzzle where
  tree := .add [.mul [.var "x", .num 9223372036854775807], .mul [.var "x", .num 0], .var "y"]
  assignment := ⟨[("x", 0), ("y", 3)], by decide⟩
  target := 1

theorem bounds_tight_steep : steep.Built ∧
    steep.bounds = (9223372036854775810, 18446744073709551615) ∧
    (∃ least, steep.Reaches least ∧ steep.valueUnder least.valueOf = 9223372036854775810) ∧
    ∃ greatest, steep.Reaches greatest ∧
      steep.valueUnder greatest.valueOf = 18446744073709551615 := by
  have created : create steep.tree steep.target steep.assignment = .ok steep := rfl
  have built : steep.Built := .create created
  have bounds : steep.bounds = (9223372036854775810, 18446744073709551615) := rfl
  obtain ⟨-, ⟨least, reached, -, value⟩, greatest, reached', -, value'⟩ := bounds_tight built
  rw [bounds] at value value'
  exact ⟨built, bounds, ⟨least, reached, value⟩, greatest, reached', value'⟩

end SearchSpace.Puzzle
