import SearchSpace.Proofs.Expr
import SearchSpace.Proofs.Puzzle.Built

/-!
# Completions of a puzzle

A completion gives a digit to every variable and keeps the digits that are there. Its value lies
within the bounds of the puzzle, so a puzzle that can still be solved is never given up. Filling the
open variables in the order of their names completes a puzzle one digit at a time.
-/

namespace SearchSpace.Puzzle

variable {puzzle next : Puzzle} {name : String} {value fill : UInt8} {values : String → UInt8}

/-- Digits for all variables, among them those that the puzzle has already. -/
structure Completion (puzzle : Puzzle) (values : String → UInt8) : Prop where
  digit : ∀ name ∈ puzzle.tree.names, leastDigit ≤ values name ∧ values name ≤ greatestDigit
  kept : ∀ name ∈ puzzle.tree.names, puzzle.valueOf name ≠ unassigned →
    values name = puzzle.valueOf name

/-- The value of the expression under values of the variables. -/
def valueUnder (puzzle : Puzzle) (values : String → UInt8) : UInt64 :=
  puzzle.tree.eval fun name => (values name).toUInt64

theorem filledValue_eq (puzzle : Puzzle) (fill : UInt8) (name : String) :
    puzzle.filledValue fill name =
      (if puzzle.valueOf name = unassigned then fill else puzzle.valueOf name).toUInt64 := rfl

theorem toUInt64_mono {left right : UInt8} (le : left ≤ right) :
    left.toUInt64 ≤ right.toUInt64 := by
  rw [UInt64.le_iff_toNat_le, UInt8.toNat_toUInt64, UInt8.toNat_toUInt64]
  exact UInt8.le_iff_toNat_le.1 le

theorem WellFormed.mem_openVariables (wellFormed : puzzle.WellFormed)
    (member : name ∈ puzzle.tree.names) (unset : puzzle.valueOf name = unassigned) :
    name ∈ puzzle.openVariables :=
  Puzzle.mem_openVariables.2 ⟨(wellFormed.mem_names_iff name).2 member, unset⟩

theorem WellFormed.valueOf_ne_unassigned (wellFormed : puzzle.WellFormed)
    (closed : puzzle.openVariables = []) (member : name ∈ puzzle.tree.names) :
    puzzle.valueOf name ≠ unassigned := by
  intro unset
  have isOpen := wellFormed.mem_openVariables member unset
  rw [closed] at isOpen
  cases isOpen

/-- No variable is open exactly if all variables of the expression have digits. -/
theorem WellFormed.openVariables_eq_nil_iff (wellFormed : puzzle.WellFormed) :
    puzzle.openVariables = [] ↔ ∀ name ∈ puzzle.tree.names, puzzle.valueOf name ≠ unassigned := by
  constructor
  · intro closed name member
    exact wellFormed.valueOf_ne_unassigned closed member
  · intro set
    rw [List.eq_nil_iff_forall_not_mem]
    intro name isOpen
    have ⟨known, unset⟩ := Puzzle.mem_openVariables.1 isOpen
    exact set name ((wellFormed.mem_names_iff name).1 known) unset

/-- Without open variables it does not matter what they would be filled with. -/
theorem valueFilling_eq_valueUnder (wellFormed : puzzle.WellFormed)
    (closed : puzzle.openVariables = []) (fill : UInt8) :
    puzzle.valueFilling fill = puzzle.valueUnder puzzle.valueOf := by
  apply Expr.eval_congr
  intro name member
  have set := wellFormed.valueOf_ne_unassigned closed member
  rw [filledValue_eq, if_neg set]

namespace Completion

theorem least_le (completion : puzzle.Completion values) :
    puzzle.valueFilling leastDigit ≤ puzzle.valueUnder values := by
  apply Expr.eval_mono
  intro name member
  rw [filledValue_eq]
  apply toUInt64_mono
  by_cases unset : puzzle.valueOf name = unassigned
  · rw [if_pos unset]
    exact (completion.digit name member).1
  · rw [if_neg unset, completion.kept name member unset]
    exact UInt8.le_refl _

theorem le_greatest (completion : puzzle.Completion values) :
    puzzle.valueUnder values ≤ puzzle.valueFilling greatestDigit := by
  apply Expr.eval_mono
  intro name member
  rw [filledValue_eq]
  apply toUInt64_mono
  by_cases unset : puzzle.valueOf name = unassigned
  · rw [if_pos unset]
    exact (completion.digit name member).2
  · rw [if_neg unset, completion.kept name member unset]
    exact UInt8.le_refl _

theorem valueUnder_eq (completion : puzzle.Completion values) (wellFormed : puzzle.WellFormed)
    (closed : puzzle.openVariables = []) :
    puzzle.valueUnder values = puzzle.valueUnder puzzle.valueOf := by
  apply Expr.eval_congr
  intro name member
  have set := wellFormed.valueOf_ne_unassigned closed member
  rw [completion.kept name member set]

/-- A puzzle with a completion that has the target value is not given up. -/
theorem isDeadEnd_eq_false (completion : puzzle.Completion values) (wellFormed : puzzle.WellFormed)
    (reached : puzzle.valueUnder values = puzzle.target) : puzzle.isDeadEnd = false := by
  have least := completion.least_le
  have greatest := completion.le_greatest
  rw [reached] at least greatest
  simp only [isDeadEnd, bounds, Bool.or_eq_false_iff, Bool.and_eq_false_imp, List.isEmpty_iff,
    bne_eq_false_iff_eq]
  refine ⟨⟨decide_eq_false (UInt64.not_lt.2 least), decide_eq_false (UInt64.not_lt.2 greatest)⟩, ?_⟩
  intro closed
  rw [valueFilling_eq_valueUnder wellFormed closed, ← completion.valueUnder_eq wellFormed closed,
    reached]

theorem of_setVariable (isOpen : name ∈ puzzle.openVariables)
    (completion : (puzzle.setVariable name value).Completion values) :
    puzzle.Completion values where
  digit := completion.digit
  kept other member set := by
    have unset := (mem_openVariables.1 isOpen).2
    have differ : other ≠ name := by
      rintro rfl
      exact set unset
    have kept := completion.kept other member
    rw [valueOf_setVariable, if_neg differ] at kept
    exact kept set

end Completion

theorem isSolved_iff (wellFormed : puzzle.WellFormed) : puzzle.isSolved = true ↔
    puzzle.openVariables = [] ∧ puzzle.valueUnder puzzle.valueOf = puzzle.target := by
  rw [isSolved, Bool.and_eq_true, List.isEmpty_iff, beq_iff_eq]
  constructor
  · rintro ⟨closed, value⟩
    rw [valueFilling_eq_valueUnder wellFormed closed] at value
    exact ⟨closed, value⟩
  · rintro ⟨closed, value⟩
    rw [valueFilling_eq_valueUnder wellFormed closed]
    exact ⟨closed, value⟩

/-- Where steps have closed all variables of a puzzle, they have completed it. -/
theorem Extends.completion {last : Puzzle} (extended : puzzle.Extends last)
    (wellFormed : last.WellFormed) (closed : last.openVariables = []) :
    puzzle.Completion last.valueOf where
  digit name member := by
    rw [← extended.tree_eq] at member
    have set := wellFormed.valueOf_ne_unassigned closed member
    exact ⟨least_le_of_ne_unassigned set, wellFormed.valueOf_le name⟩
  kept name _ set := extended.kept name set

/-- The value of a variable after the open variables got values, in the order of their names. -/
def valueWith (puzzle : Puzzle) (values : List UInt8) (name : String) : UInt8 :=
  ((puzzle.openVariables.zip values).lookup name).getD (puzzle.valueOf name)

/-- One digit for each open variable, with which the expression has the target value. -/
structure SolvedBy (puzzle : Puzzle) (values : List UInt8) : Prop where
  length_eq : values.length = puzzle.openVariables.length
  digit : ∀ value ∈ values, leastDigit ≤ value ∧ value ≤ greatestDigit
  reached : puzzle.valueUnder (puzzle.valueWith values) = puzzle.target

theorem lookup_zip_eq_none {names : List String} {values : List UInt8} (absent : name ∉ names) :
    (names.zip values).lookup name = none := by
  rw [Assignment.lookup_eq_none_iff_notMem, List.mem_map]
  rintro ⟨entry, member, rfl⟩
  exact absent (List.of_mem_zip member).1

theorem exists_lookup_zip {names : List String} {values : List UInt8}
    (long : values.length = names.length) (member : name ∈ names) :
    ∃ value ∈ values, (names.zip values).lookup name = some value := by
  induction names generalizing values with
  | nil => cases member
  | cons first rest ih =>
    cases values with
    | nil => cases long
    | cons value others =>
      rw [List.zip_cons_cons, Assignment.lookup_cons_eq_ite]
      by_cases same : name = first
      · exact ⟨value, List.mem_cons_self, if_pos same⟩
      · have member := (List.mem_cons.1 member).resolve_left same
        obtain ⟨found, inside, eq⟩ := ih (Nat.succ.inj long) member
        exact ⟨found, List.mem_cons_of_mem _ inside, by rw [if_neg same, eq]⟩

theorem lookup_zip_map {names : List String} (member : name ∈ names) :
    (names.zip (names.map values)).lookup name = some (values name) := by
  induction names with
  | nil => cases member
  | cons first rest ih =>
    rw [List.map_cons, List.zip_cons_cons, Assignment.lookup_cons_eq_ite]
    by_cases same : name = first
    · rw [if_pos same, same]
    · rw [if_neg same, ih ((List.mem_cons.1 member).resolve_left same)]

theorem SolvedBy.completion {values : List UInt8} (solved : puzzle.SolvedBy values)
    (wellFormed : puzzle.WellFormed) : puzzle.Completion (puzzle.valueWith values) := by
  have notOpen : ∀ name, puzzle.valueOf name ≠ unassigned →
      puzzle.valueWith values name = puzzle.valueOf name := by
    intro name set
    have absent : name ∉ puzzle.openVariables := fun isOpen => set (mem_openVariables.1 isOpen).2
    rw [valueWith, lookup_zip_eq_none absent]
    rfl
  refine ⟨fun name member => ?_, fun name _ set => notOpen name set⟩
  by_cases unset : puzzle.valueOf name = unassigned
  · have isOpen := wellFormed.mem_openVariables member unset
    obtain ⟨value, inside, found⟩ := exists_lookup_zip solved.length_eq isOpen
    rw [valueWith, found]
    exact solved.digit value inside
  · rw [notOpen name unset]
    exact ⟨least_le_of_ne_unassigned unset, wellFormed.valueOf_le name⟩

theorem Completion.solvedBy (completion : puzzle.Completion values) (wellFormed : puzzle.WellFormed)
    (reached : puzzle.valueUnder values = puzzle.target) :
    puzzle.SolvedBy (puzzle.openVariables.map values) where
  length_eq := List.length_map _
  digit := by
    intro value member
    obtain ⟨name, isOpen, rfl⟩ := List.mem_map.1 member
    have known := (mem_openVariables.1 isOpen).1
    exact completion.digit name ((wellFormed.mem_names_iff name).1 known)
  reached := by
    rw [← reached]
    apply Expr.eval_congr
    intro name member
    by_cases unset : puzzle.valueOf name = unassigned
    · have isOpen := wellFormed.mem_openVariables member unset
      rw [valueWith, lookup_zip_map isOpen]
      rfl
    · have absent : name ∉ puzzle.openVariables := fun isOpen =>
        unset (mem_openVariables.1 isOpen).2
      rw [valueWith, lookup_zip_eq_none absent, completion.kept name member unset]
      rfl

theorem solvedBy_nil (wellFormed : puzzle.WellFormed) (closed : puzzle.openVariables = []) :
    puzzle.SolvedBy [] ↔ puzzle.isSolved = true := by
  have same : puzzle.valueWith [] = puzzle.valueOf := by
    funext name
    rw [valueWith, closed]
    rfl
  rw [isSolved_iff wellFormed]
  constructor
  · intro solved
    rw [← same]
    exact ⟨closed, solved.reached⟩
  · rintro ⟨_, reached⟩
    exact ⟨congrArg List.length closed.symm, by simp, by rw [same, reached]⟩

theorem valueWith_cons {rest : List String} {values : List UInt8}
    (first : puzzle.openVariables = name :: rest) (assigned : value ≠ unassigned) :
    puzzle.valueWith (value :: values) = (puzzle.setVariable name value).valueWith values := by
  have distinct := puzzle.nodup_openVariables
  rw [first, List.nodup_cons] at distinct
  funext other
  rw [valueWith, valueWith, first, openVariables_setVariable_first first assigned,
    valueOf_setVariable, List.zip_cons_cons, Assignment.lookup_cons_eq_ite]
  by_cases same : other = name
  · rw [if_pos same, if_pos same, same, lookup_zip_eq_none distinct.1]
    rfl
  · rw [if_neg same, if_neg same]

/-- The first digit is that of the first open variable. -/
theorem solvedBy_cons {rest : List String} {values : List UInt8}
    (first : puzzle.openVariables = name :: rest) :
    puzzle.SolvedBy (value :: values) ↔
      (leastDigit ≤ value ∧ value ≤ greatestDigit) ∧
        (puzzle.setVariable name value).SolvedBy values := by
  by_cases digit : leastDigit ≤ value ∧ value ≤ greatestDigit
  · have assigned := ne_unassigned_of_le digit.1
    have onward := openVariables_setVariable_first first assigned
    have same : puzzle.valueWith (value :: values) = _ := valueWith_cons first assigned
    constructor
    · rintro ⟨length_eq, digits, reached⟩
      refine ⟨digit, ?_, fun value member => digits value (List.mem_cons_of_mem _ member), ?_⟩
      · rw [first] at length_eq
        rw [onward]
        exact Nat.succ.inj length_eq
      · rw [same] at reached
        exact reached
    · rintro ⟨_, length_eq, digits, reached⟩
      refine ⟨?_, List.forall_mem_cons.2 ⟨digit, digits⟩, ?_⟩
      · rw [onward] at length_eq
        rw [first, List.length_cons, List.length_cons, length_eq]
      · rw [same]
        exact reached
  · constructor
    · intro solved
      exact absurd (solved.digit value List.mem_cons_self) digit
    · intro solved
      exact absurd solved.1 digit

end SearchSpace.Puzzle
