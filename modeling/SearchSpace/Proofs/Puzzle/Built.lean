import SearchSpace.Proofs.Puzzle.Variables

/-!
# The puzzles that can be built

Construction and every later step keep the assignment well formed: it holds the variables of the
expression and no others, with values up to 9. Steps only fill open variables, so a puzzle extends
the one it was reached from.
-/

namespace SearchSpace.Puzzle

/-- The puzzles that can be built: from an expression, a target and some values, and then by giving
variables digits. -/
inductive Built : Puzzle → Prop
  | create {tree : Expr} {target : UInt64} {assigned : Assignment} {puzzle : Puzzle} :
      create tree target assigned = .ok puzzle → Built puzzle
  | assign {puzzle next : Puzzle} {name : String} {value : UInt8} :
      Built puzzle → puzzle.assign name value = .ok next → Built next
  | successor {puzzle next : Puzzle} :
      Built puzzle → next ∈ puzzle.successors → Built next

/-- The assignment holds the variables of the expression, with values up to 9. -/
structure WellFormed (puzzle : Puzzle) : Prop where
  mem_names_iff : ∀ name, name ∈ puzzle.assignment.names ↔ name ∈ puzzle.tree.names
  valueOf_le : ∀ name, puzzle.valueOf name ≤ greatestDigit

variable {puzzle next other : Puzzle} {name : String} {value : UInt8}

/-- A puzzle is created of a tree without flaws whose variables get values one after another. -/
theorem eq_of_create {tree : Expr} {target : UInt64} {assigned : Assignment}
    (created : create tree target assigned = .ok puzzle) :
    tree.flaw? = none ∧ puzzle.tree = tree ∧ puzzle.target = target ∧
      enterAll assigned.entries (Assignment.empty.cover tree.names unassigned) =
        .ok puzzle.assignment := by
  unfold create at created
  split at created
  · cases created
  · next flawless =>
    cases entered : enterAll assigned.entries (Assignment.empty.cover tree.names unassigned) with
    | error reason =>
      rw [entered] at created
      cases created
    | ok assignment =>
      rw [entered] at created
      cases created
      exact ⟨flawless, rfl, rfl, rfl⟩

/-- A variable that is there is given a digit. -/
theorem eq_of_assign (assigned : puzzle.assign name value = .ok next) :
    value ≤ greatestDigit ∧ name ∈ puzzle.assignment.names ∧
      next = puzzle.setVariable name value := by
  unfold assign at assigned
  split at assigned
  · cases assigned
  · next inRange =>
    simp only [Bool.or_eq_true, decide_eq_true_eq, not_or] at inRange
    split at assigned
    · next known =>
      cases assigned
      exact ⟨UInt8.not_lt.1 inRange.2, Assignment.contains_iff_mem.1 known, rfl⟩
    · cases assigned

theorem WellFormed.entries_le (wellFormed : puzzle.WellFormed) :
    ∀ entry ∈ puzzle.assignment.entries, entry.2 ≤ greatestDigit := by
  intro entry member
  rw [← valueOf_of_mem member]
  exact wellFormed.valueOf_le entry.1

theorem WellFormed.setVariable (wellFormed : puzzle.WellFormed)
    (known : name ∈ puzzle.assignment.names) (le : value ≤ greatestDigit) :
    (puzzle.setVariable name value).WellFormed where
  mem_names_iff other := by
    rw [names_setVariable known]
    exact wellFormed.mem_names_iff other
  valueOf_le other := by
    rw [valueOf_setVariable]
    split
    · exact le
    · exact wellFormed.valueOf_le other

theorem WellFormed.successor (wellFormed : puzzle.WellFormed)
    (successor : next ∈ puzzle.successors) : next.WellFormed := by
  obtain ⟨name, isOpen, value, digit, rfl⟩ := mem_successors.1 successor
  have known := (mem_openVariables.1 isOpen).1
  exact wellFormed.setVariable known (mem_digits.1 digit).2

theorem WellFormed.of_enterAll {entries : List (String × UInt8)} {assignment final : Assignment}
    {tree : Expr} {target : UInt64} (wellFormed : WellFormed ⟨tree, assignment, target⟩)
    (entered : enterAll entries assignment = .ok final) : WellFormed ⟨tree, final, target⟩ := by
  induction entries generalizing assignment with
  | nil =>
    cases entered
    exact wellFormed
  | cons entry rest ih =>
    obtain ⟨name, value⟩ := entry
    rw [enterAll] at entered
    split at entered
    · cases entered
    · next small =>
      split at entered
      · next known =>
        have known := Assignment.contains_iff_mem.1 known
        have step := wellFormed.setVariable known (UInt8.not_lt.1 small)
        exact ih step entered
      · cases entered

theorem WellFormed.of_create {tree : Expr} {target : UInt64} {assigned : Assignment}
    (created : create tree target assigned = .ok puzzle) : puzzle.WellFormed := by
  obtain ⟨tree, assignment, target⟩ := puzzle
  obtain ⟨-, rfl, rfl, entered⟩ := eq_of_create created
  refine of_enterAll ⟨fun name => Assignment.mem_names_cover_empty, fun name => ?_⟩ entered
  rw [valueOf, Assignment.get?_cover_empty]
  split <;> decide

theorem WellFormed.of_built (built : Built puzzle) : puzzle.WellFormed := by
  induction built with
  | create created => exact of_create created
  | assign _ assigned ih =>
    obtain ⟨le, known, rfl⟩ := eq_of_assign assigned
    exact ih.setVariable known le
  | successor _ successor ih => exact ih.successor successor

theorem flaw?_eq_none_of_built (built : puzzle.Built) : puzzle.tree.flaw? = none := by
  induction built with
  | create created =>
    obtain ⟨flawless, tree_eq, -⟩ := eq_of_create created
    rw [tree_eq]
    exact flawless
  | assign _ assigned ih =>
    obtain ⟨-, -, rfl⟩ := eq_of_assign assigned
    exact ih
  | successor _ successor ih =>
    obtain ⟨name, -, value, -, rfl⟩ := mem_successors.1 successor
    exact ih

/-- The variables that have values keep them, and nothing else but values differs. -/
structure Extends (puzzle other : Puzzle) : Prop where
  tree_eq : other.tree = puzzle.tree
  target_eq : other.target = puzzle.target
  names_eq : other.assignment.names = puzzle.assignment.names
  kept : ∀ name, puzzle.valueOf name ≠ unassigned → other.valueOf name = puzzle.valueOf name

theorem Extends.refl (puzzle : Puzzle) : puzzle.Extends puzzle :=
  ⟨rfl, rfl, rfl, fun _ _ => rfl⟩

theorem Extends.successor (extended : puzzle.Extends other) (successor : next ∈ other.successors) :
    puzzle.Extends next := by
  obtain ⟨name, isOpen, value, digit, rfl⟩ := mem_successors.1 successor
  have ⟨known, unset⟩ := mem_openVariables.1 isOpen
  refine ⟨extended.tree_eq, extended.target_eq, ?_, fun name' assigned => ?_⟩
  · rw [names_setVariable known]
    exact extended.names_eq
  · have same := extended.kept name' assigned
    have differ : name' ≠ name := by
      rintro rfl
      rw [unset] at same
      exact assigned same.symm
    rw [valueOf_setVariable, if_neg differ, same]

end SearchSpace.Puzzle
