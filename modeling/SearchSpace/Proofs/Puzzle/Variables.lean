import Mathlib.Data.List.Nodup
import SearchSpace.Proofs.Assignment
import SearchSpace.Puzzle

/-!
# The variables of a puzzle

The value of each variable, and which variables are open, before and after a step. Every puzzle that
can be built gives values up to 9 to the variables of its expression and to no others.
-/

namespace SearchSpace.Puzzle

variable {puzzle next : Puzzle} {name other : String} {value : UInt8}

/-- The value of a variable, 0 if it is open. -/
def valueOf (puzzle : Puzzle) (name : String) : UInt8 :=
  (puzzle.assignment.get? name).getD unassigned

theorem valueOf_of_get? (found : puzzle.assignment.get? name = some value) :
    puzzle.valueOf name = value := by
  rw [valueOf, found]
  rfl

theorem valueOf_of_mem (member : (name, value) ∈ puzzle.assignment.entries) :
    puzzle.valueOf name = value :=
  valueOf_of_get? (Assignment.get?_eq_some_iff.2 member)

theorem get?_eq_some_valueOf (member : name ∈ puzzle.assignment.names) :
    puzzle.assignment.get? name = some (puzzle.valueOf name) := by
  cases found : puzzle.assignment.get? name with
  | none => exact absurd member (Assignment.get?_eq_none_iff.1 found)
  | some value => rw [valueOf_of_get? found]

theorem valueOf_setVariable (puzzle : Puzzle) (name other : String) (value : UInt8) :
    (puzzle.setVariable name value).valueOf other =
      if other = name then value else puzzle.valueOf other := by
  rw [valueOf, setVariable, Assignment.get?_insert]
  split <;> rfl

theorem names_setVariable (member : name ∈ puzzle.assignment.names) :
    (puzzle.setVariable name value).assignment.names = puzzle.assignment.names :=
  Assignment.names_insert member

theorem mem_openVariables : name ∈ puzzle.openVariables ↔
    name ∈ puzzle.assignment.names ∧ puzzle.valueOf name = unassigned := by
  simp only [openVariables, List.mem_map, List.mem_filter, beq_iff_eq]
  constructor
  · rintro ⟨entry, ⟨member, unset⟩, rfl⟩
    exact ⟨List.mem_map_of_mem member, (valueOf_of_mem member).trans unset⟩
  · rintro ⟨member, unset⟩
    have found := Assignment.get?_eq_some_iff.1 (get?_eq_some_valueOf member)
    exact ⟨_, ⟨found, unset⟩, rfl⟩

theorem nodup_openVariables (puzzle : Puzzle) : puzzle.openVariables.Nodup :=
  puzzle.assignment.nodup_names.sublist (List.filter_sublist.map _)

/-- A variable that gets a value is open no longer; the others keep their order. -/
theorem openVariables_setVariable (member : name ∈ puzzle.assignment.names)
    (assigned : value ≠ unassigned) :
    (puzzle.setVariable name value).openVariables = puzzle.openVariables.erase name := by
  have entries : (puzzle.assignment.insert name value).entries = _ :=
    Assignment.entries_insert member
  rw [puzzle.nodup_openVariables.erase_eq_filter, openVariables, setVariable, entries,
    openVariables]
  induction puzzle.assignment.entries with
  | nil => rfl
  | cons entry rest ih =>
    by_cases same : entry.1 = name
    · by_cases unset : entry.2 = unassigned <;> simp_all
    · by_cases unset : entry.2 = unassigned <;> simp_all

theorem openVariables_setVariable_first {rest : List String}
    (first : puzzle.openVariables = name :: rest) (assigned : value ≠ unassigned) :
    (puzzle.setVariable name value).openVariables = rest := by
  have isOpen : name ∈ puzzle.openVariables := by simp [first]
  have known := (mem_openVariables.1 isOpen).1
  rw [openVariables_setVariable known assigned, first, List.erase_cons_head]

theorem mem_digits : value ∈ digits ↔ leastDigit ≤ value ∧ value ≤ greatestDigit := by
  simp only [digits, leastDigit, greatestDigit, List.mem_cons, List.not_mem_nil, or_false,
    ← UInt8.toNat_inj, UInt8.le_iff_toNat_le]
  constructor
  · intro listed
    simp at listed ⊢
    omega
  · intro within
    simp at within ⊢
    omega

theorem ne_unassigned_of_le (le : leastDigit ≤ value) : value ≠ unassigned := by
  rintro rfl
  exact absurd le (by decide)

theorem least_le_of_ne_unassigned (assigned : value ≠ unassigned) : leastDigit ≤ value := by
  apply UInt8.le_iff_toNat_le.2
  apply Nat.pos_of_ne_zero
  intro zero
  exact assigned (UInt8.toNat_inj.1 zero)

theorem mem_successors : next ∈ puzzle.successors ↔
    ∃ name ∈ puzzle.openVariables, ∃ value ∈ digits, puzzle.setVariable name value = next := by
  simp only [successors, List.mem_flatMap, List.mem_map]

/-- Each step closes one variable. -/
theorem length_openVariables_of_mem_successors (successor : next ∈ puzzle.successors) :
    next.openVariables.length + 1 = puzzle.openVariables.length := by
  obtain ⟨name, isOpen, value, digit, rfl⟩ := mem_successors.1 successor
  have assigned := ne_unassigned_of_le (mem_digits.1 digit).1
  have known := (mem_openVariables.1 isOpen).1
  have nonempty := List.length_pos_of_mem isOpen
  rw [openVariables_setVariable known assigned, List.length_erase_of_mem isOpen]
  omega

end SearchSpace.Puzzle
