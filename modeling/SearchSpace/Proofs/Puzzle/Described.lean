import SearchSpace.Document.Puzzle
import SearchSpace.Proofs.Puzzle.Completion

/-!
# Described puzzles

A description names values for some of the variables; 0 stands for no value. The puzzle that is
built from it has these values, so its completions are the digits for all variables that keep the
values of the description.
-/

namespace SearchSpace.Puzzle

variable {puzzle : Puzzle} {name : String} {entries : List (String × UInt8)}
  {assignment final : Assignment} {values : String → UInt8}

/-- Entered values are those of the names, and the others stay. -/
theorem get?_enterAll (distinct : (entries.map (·.1)).Nodup)
    (entered : enterAll entries assignment = .ok final) (name : String) :
    final.get? name = (entries.lookup name).or (assignment.get? name) := by
  induction entries generalizing assignment with
  | nil =>
    cases entered
    rfl
  | cons entry rest ih =>
    obtain ⟨first, value⟩ := entry
    rw [List.map_cons, List.nodup_cons] at distinct
    unfold enterAll at entered
    split at entered
    · cases entered
    split at entered
    · rw [ih distinct.2 entered, Assignment.get?_insert, Assignment.lookup_cons_eq_ite]
      by_cases same : name = first
      · subst same
        have absent : rest.lookup name = none :=
          Assignment.lookup_eq_none_iff_notMem.2 distinct.1
        simp [absent]
      · simp [same]
    · cases entered

/-- The values are those that were given, and the other variables are open. -/
theorem get?_of_create {tree : Expr} {target : UInt64} {assigned : Assignment}
    (created : create tree target assigned = .ok puzzle) (name : String) :
    puzzle.assignment.get? name = (assigned.get? name).or
      (if name ∈ tree.names then some unassigned else none) := by
  obtain ⟨-, -, -, entered⟩ := eq_of_create created
  rw [get?_enterAll assigned.nodup_names entered, Assignment.get?_cover_empty]
  rfl

namespace Description

variable {description : Description}

/-- Digits for all variables that keep the values of the description and give the expression the
target value. -/
structure SolvedBy (description : Description) (values : String → UInt8) : Prop where
  digit : ∀ name ∈ description.tree.names, leastDigit ≤ values name ∧ values name ≤ greatestDigit
  kept : ∀ name value, description.assignment.get? name = some value → value ≠ unassigned →
    values name = value
  reached : description.tree.eval (fun name => (values name).toUInt64) = description.target

theorem get?_of_puzzle (built : description.puzzle = .ok puzzle) (name : String) :
    puzzle.assignment.get? name = (description.assignment.get? name).or
      (if name ∈ description.tree.names then some unassigned else none) :=
  get?_of_create built name

/-- The values of the description are those of the puzzle, and the other variables are open. -/
theorem valueOf_of_puzzle (built : description.puzzle = .ok puzzle) (name : String) :
    puzzle.valueOf name = (description.assignment.get? name).getD unassigned := by
  unfold valueOf
  rw [get?_of_puzzle built]
  cases description.assignment.get? name with
  | some value => rfl
  | none =>
    show (if name ∈ description.tree.names then some unassigned else none).getD unassigned = _
    split <;> rfl

theorem wellFormed_of_puzzle (built : description.puzzle = .ok puzzle) : puzzle.WellFormed :=
  .of_create built

/-- What solves the description completes the puzzle and gives it the target value. -/
theorem solvedBy_iff (built : description.puzzle = .ok puzzle) :
    description.SolvedBy values ↔
      puzzle.Completion values ∧ puzzle.valueUnder values = puzzle.target := by
  obtain ⟨-, tree_eq, target_eq, -⟩ := eq_of_create built
  have wellFormed := wellFormed_of_puzzle built
  constructor
  · intro solved
    refine ⟨⟨?_, ?_⟩, ?_⟩
    · rw [tree_eq]
      exact solved.digit
    · intro name _ set
      rw [valueOf_of_puzzle built] at set ⊢
      cases held : description.assignment.get? name with
      | none =>
        rw [held] at set
        exact absurd rfl set
      | some value =>
        rw [held] at set
        exact solved.kept name value held set
    · unfold valueUnder
      rw [tree_eq, target_eq]
      exact solved.reached
  · rintro ⟨completion, reached⟩
    refine ⟨?_, ?_, ?_⟩
    · rw [← tree_eq]
      exact completion.digit
    · intro name value held set
      have valueOf_eq : puzzle.valueOf name = value := by
        rw [valueOf_of_puzzle built, held]
        rfl
      have known : name ∈ puzzle.assignment.names := by
        rw [← not_not (a := name ∈ puzzle.assignment.names), ← Assignment.get?_eq_none_iff,
          get?_of_puzzle built, held]
        simp
      have member := (wellFormed.mem_names_iff name).1 known
      rw [← valueOf_eq] at set ⊢
      exact completion.kept name member set
    · rw [← tree_eq, ← target_eq]
      exact reached

end Description

/-- A document from which a puzzle is loaded holds the description of it. -/
theorem exists_description {document : String} (loaded : ofJson document = .ok puzzle) :
    ∃ description, Description.ofJson document = .ok description ∧
      description.puzzle = .ok puzzle := by
  unfold ofJson at loaded
  split at loaded
  · cases loaded
  · next description isRead =>
    refine ⟨description, isRead, ?_⟩
    cases built : description.puzzle with
    | error reason =>
      rw [built] at loaded
      cases loaded
    | ok other =>
      rw [built] at loaded
      cases loaded
      rfl

/-- The digits of a solved puzzle complete every puzzle that it extends. -/
theorem completion_of_isSolved {last : Puzzle} (extended : puzzle.Extends last)
    (wellFormed : last.WellFormed) (solved : last.isSolved = true) :
    puzzle.Completion last.valueOf ∧ puzzle.valueUnder last.valueOf = puzzle.target := by
  have ⟨closed, reached⟩ := (isSolved_iff wellFormed).1 solved
  refine ⟨extended.completion wellFormed closed, ?_⟩
  unfold valueUnder at reached ⊢
  rw [← extended.tree_eq, ← extended.target_eq]
  exact reached

end SearchSpace.Puzzle
