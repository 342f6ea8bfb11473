import Mathlib.Data.List.Shortlex
import SearchSpace.Proofs.Puzzle.Completion
import SearchSpace.Proofs.Puzzle.Key

/-!
# The first solution of a puzzle

Every solution of a puzzle closes one open variable at each step, so all solutions are equally long.
The first of them closes the variables in the order of their names and gives them the
lexicographically least digits that solve the puzzle.
-/

namespace SearchSpace

theorem VisitedSet.toSet_empty {K : Type} [BEq K] [Hashable K] :
    (∅ : VisitedSet K).toSet = ∅ := by
  ext key
  exact iff_of_false VisitedSet.not_mem_empty (Set.notMem_empty key)

namespace Puzzle

variable {puzzle next : Puzzle} {name : String} {rest : List String} {value : UInt8}
  {values : List UInt8} {positions : List Nat} {states : List Puzzle}

/-- The states passed while variables get values one after another. -/
def assigning (puzzle : Puzzle) : List (String × UInt8) → List Puzzle
  | [] => [puzzle]
  | (name, value) :: others => puzzle :: assigning (puzzle.setVariable name value) others

/-- The positions of the successors that give these digits to the first open variables. -/
def positionsOf (values : List UInt8) : List Nat := values.map fun value => value.toNat - 1

theorem getElem?_digits (digit : value ∈ digits) : digits[value.toNat - 1]? = some value := by
  simp only [digits, List.mem_cons, List.not_mem_nil, or_false] at digit
  rcases digit with rfl | rfl | rfl | rfl | rfl | rfl | rfl | rfl | rfl <;> rfl

theorem exists_digit {position : Nat} (lt : position < digits.length) :
    ∃ value ∈ digits, value.toNat = position + 1 := by
  refine ⟨digits[position], List.getElem_mem lt, ?_⟩
  revert position
  decide

/-- The first successors fill the first open variable. -/
theorem getElem?_successors (first : puzzle.openVariables = name :: rest) (digit : value ∈ digits) :
    puzzle.successors[value.toNat - 1]? = some (puzzle.setVariable name value) := by
  have taken := getElem?_digits digit
  have inFront : value.toNat - 1 < (digits.map (puzzle.setVariable name)).length := by
    rw [List.length_map]
    exact (List.getElem?_eq_some_iff.1 taken).1
  rw [successors, first, List.flatMap_cons, List.getElem?_append_left inFront, List.getElem?_map,
    taken]
  rfl

/-- From the start of a walk to its end one variable is closed at each step. -/
theorem length_positions (walk : space.Walk puzzle positions states) {last : Puzzle}
    (atEnd : states.getLast? = some last) :
    positions.length + last.openVariables.length = puzzle.openVariables.length := by
  induction walk with
  | stay state =>
    obtain rfl : state = last := by simpa using atEnd
    exact Nat.zero_add _
  | move taken onward ih =>
    have closes := length_openVariables_of_mem_successors (List.mem_of_getElem? taken)
    rw [onward.getLast?_cons] at atEnd
    have length_eq := ih atEnd
    rw [List.length_cons]
    omega

theorem length_positions_of_solution {blocked : Set String} (wellFormed : puzzle.WellFormed)
    (solution : space.Solution blocked puzzle positions states) :
    positions.length = puzzle.openVariables.length := by
  obtain ⟨last, atEnd, goal⟩ := solution.goal
  have wellFormed' := (solution.walk.mem_region region_closed (mem_region wellFormed) last
    (List.mem_of_getLast? atEnd)).2
  have closed := ((isSolved_iff wellFormed').1 goal).1
  have length_eq := length_positions solution.walk atEnd
  rw [closed] at length_eq
  exact length_eq

theorem length_openVariables_le (walk : space.Walk puzzle positions states) :
    ∀ state ∈ states, state.openVariables.length ≤ puzzle.openVariables.length := by
  induction walk with
  | stay state =>
    intro other member
    obtain rfl := List.mem_singleton.1 member
    exact Nat.le_refl _
  | move taken _ ih =>
    intro other member
    have closes := length_openVariables_of_mem_successors (List.mem_of_getElem? taken)
    rcases List.mem_cons.1 member with rfl | member
    · exact Nat.le_refl _
    · have le := ih other member
      omega

/-- No walk comes to the same text twice. -/
theorem nodup_keys {start : Puzzle} (inside : puzzle ∈ start.region)
    (walk : space.Walk puzzle positions states) : (states.map space.key).Nodup := by
  induction walk with
  | stay => exact List.nodup_singleton _
  | @move state next position positions states taken onward ih =>
    have successor := List.mem_of_getElem? taken
    have inside' := region_closed inside successor
    rw [List.map_cons, List.nodup_cons]
    refine ⟨fun again => ?_, ih inside'⟩
    obtain ⟨other, member, same⟩ := List.mem_map.1 again
    have within := onward.mem_region region_closed inside' other member
    obtain rfl := eq_of_text_eq within inside same
    have closes := length_openVariables_of_mem_successors successor
    have le := length_openVariables_le onward other member
    omega

theorem simple_of_solution {blocked : Set String} (wellFormed : puzzle.WellFormed)
    (solution : space.Solution blocked puzzle positions states) :
    space.SimpleSolution blocked puzzle positions states :=
  { solution with distinct := nodup_keys (mem_region wellFormed) solution.walk }

/-- A solution yields digits that solve the puzzle. -/
theorem exists_solvedBy {blocked : Set String} (wellFormed : puzzle.WellFormed)
    (solution : space.Solution blocked puzzle positions states) :
    ∃ values, puzzle.SolvedBy values := by
  have walk := solution.walk
  induction walk with
  | stay state =>
    have goal := solution.isGoal_of_stay
    have closed := ((isSolved_iff wellFormed).1 goal).1
    exact ⟨[], (solvedBy_nil wellFormed closed).2 goal⟩
  | move taken onward ih =>
    have successor := List.mem_of_getElem? taken
    have wellFormed' := wellFormed.successor successor
    obtain ⟨values, solved⟩ := ih wellFormed' (solution.tail onward)
    have completion := solved.completion wellFormed'
    have reached := solved.reached
    obtain ⟨name, isOpen, value, -, rfl⟩ := mem_successors.1 successor
    exact ⟨_, (completion.of_setVariable isOpen).solvedBy wellFormed reached⟩

/-- Giving the open variables digits that solve the puzzle, one after another, is a solution. -/
theorem solution_of_solvedBy (wellFormed : puzzle.WellFormed) (solved : puzzle.SolvedBy values) :
    space.Solution ∅ puzzle (positionsOf values)
      (puzzle.assigning (puzzle.openVariables.zip values)) := by
  induction values generalizing puzzle with
  | nil =>
    have closed : puzzle.openVariables = [] := List.length_eq_zero_iff.1 solved.length_eq.symm
    have alive := (solved.completion wellFormed).isDeadEnd_eq_false wellFormed solved.reached
    have goal := (solvedBy_nil wellFormed closed).1 solved
    rw [closed]
    exact .stay alive (Set.notMem_empty _) goal
  | cons value values ih =>
    obtain ⟨name, rest, first⟩ := List.exists_cons_of_length_eq_add_one solved.length_eq.symm
    have alive := (solved.completion wellFormed).isDeadEnd_eq_false wellFormed solved.reached
    have ⟨within, onward⟩ := (solvedBy_cons first).1 solved
    have taken := getElem?_successors first (mem_digits.2 within)
    have solution := ih (wellFormed.successor (List.mem_of_getElem? taken)) onward
    rw [openVariables_setVariable_first first (ne_unassigned_of_le within.1)] at solution
    rw [first]
    exact .move alive (Set.notMem_empty _) taken solution

theorem least_of_least_cons (first : puzzle.openVariables = name :: rest) (digit : value ∈ digits)
    (least : ∀ others, puzzle.SolvedBy others → value :: values ≤ others) :
    ∀ others, (puzzle.setVariable name value).SolvedBy others → values ≤ others := by
  intro others solved
  have le := least _ ((solvedBy_cons first).2 ⟨mem_digits.1 digit, solved⟩)
  rcases List.cons_le_cons_iff.1 le with less | ⟨-, le⟩
  · exact absurd less (UInt8.lt_irrefl _)
  · exact le

/-- No solution comes before the one with the least digits. -/
theorem positionsOf_le {blocked : Set String} (wellFormed : puzzle.WellFormed)
    (solved : puzzle.SolvedBy values)
    (least : ∀ others, puzzle.SolvedBy others → values ≤ others)
    (solution : space.Solution blocked puzzle positions states) :
    positionsOf values ≤ positions := by
  induction values generalizing puzzle positions states with
  | nil => exact not_lt.1 (List.not_lt_nil _)
  | cons value values ih =>
    obtain ⟨name, rest, first⟩ := List.exists_cons_of_length_eq_add_one solved.length_eq.symm
    have ⟨within, onward⟩ := (solvedBy_cons first).1 solved
    have digit := mem_digits.2 within
    have walk := solution.walk
    cases walk with
    | stay =>
      have closed := ((isSolved_iff wellFormed).1 solution.isGoal_of_stay).1
      rw [first] at closed
      cases closed
    | @move _ next position positions states taken further =>
      have wellFormed' := wellFormed.successor (List.mem_of_getElem? taken)
      have tail := solution.tail further
      rw [positionsOf, List.map_cons, StateSpace.positions_le_iff]
      by_cases later : position < digits.length
      · -- The first variable gets a digit here too, and some digits solve what remains.
        obtain ⟨other, digit', toNat_eq⟩ := exists_digit later
        have eq := getElem?_successors first digit'
        have taken : puzzle.successors[position]? = some next := taken
        rw [toNat_eq, Nat.add_sub_cancel, taken, Option.some.injEq] at eq
        rw [eq] at wellFormed' tail
        obtain ⟨others, solved'⟩ := exists_solvedBy wellFormed' tail
        have le := least _ ((solvedBy_cons first).2 ⟨mem_digits.1 digit', solved'⟩)
        rcases List.cons_le_cons_iff.1 le with less | ⟨rfl, -⟩
        · left
          have positive := UInt8.le_iff_toNat_le.1 within.1
          rw [UInt8.lt_iff_toNat_lt] at less
          simp only [leastDigit, UInt8.reduceToNat] at positive
          omega
        · right
          refine ⟨by omega, ih wellFormed' onward ?_ tail⟩
          exact least_of_least_cons first digit least
      · left
        have small := UInt8.le_iff_toNat_le.1 within.2
        simp only [greatestDigit, digits, List.length_cons, List.length_nil,
          UInt8.reduceToNat] at small later
        omega

/-- If digits solve the puzzle, there are least ones. -/
theorem exists_least (solvable : ∃ values, puzzle.SolvedBy values) :
    ∃ values, puzzle.SolvedBy values ∧ ∀ others, puzzle.SolvedBy others → values ≤ others := by
  have wellFounded : WellFounded (List.Shortlex (· < · : UInt8 → UInt8 → Prop)) :=
    List.Shortlex.wf (InvImage.wf UInt8.toNat Nat.lt_wfRel.wf)
  obtain ⟨values, solved, minimal⟩ := wellFounded.has_min {values | puzzle.SolvedBy values} solvable
  refine ⟨values, solved, fun others solvedOthers less => ?_⟩
  have long : others.length = values.length := solvedOthers.length_eq.trans solved.length_eq.symm
  exact minimal others solvedOthers (.of_lex long less)

/-- The solution that no simple one precedes gives the variables the least digits. -/
theorem eq_assigning_of_first (wellFormed : puzzle.WellFormed) (solved : puzzle.SolvedBy values)
    (least : ∀ others, puzzle.SolvedBy others → values ≤ others)
    (solution : space.Solution ∅ puzzle positions states)
    (first : ∀ others states', space.SimpleSolution ∅ puzzle others states' →
      positions ≤ others) :
    states = puzzle.assigning (puzzle.openVariables.zip values) := by
  have assigned := solution_of_solvedBy wellFormed solved
  have le := first _ _ (simple_of_solution wellFormed assigned)
  have ge := positionsOf_le wellFormed solved least solution
  obtain rfl : positions = positionsOf values := le_antisymm le ge
  exact solution.walk.unique assigned.walk

end Puzzle

end SearchSpace
