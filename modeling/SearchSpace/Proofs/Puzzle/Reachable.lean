import SearchSpace.Proofs.Puzzle.Extremes
import SearchSpace.Proofs.Puzzle.Key
import SearchSpace.Proofs.Puzzle.Session

/-!
# The states of one puzzle's search

The text of a puzzle does not say where a name ends, but the puzzles of one search have the same
names, and there it is exact: no two states have the same text. Steps lead to all puzzles that give
further values to open variables, and to no others.
-/

namespace SearchSpace.Puzzle

variable {puzzle state next other left right : Puzzle} {name name' : String} {value value' : UInt8}

/-! ## Texts -/

/-- The puzzles of a session are told apart by their texts. -/
theorem Session.text_eq_iff (built : puzzle.Built) (session : puzzle.Session left)
    (session' : puzzle.Session right) : left.text = right.text ↔ left = right := by
  refine ⟨fun same => ?_, congrArg text⟩
  obtain ⟨tree, target⟩ := session.same_equation
  obtain ⟨tree', target'⟩ := session'.same_equation
  have names := session.names_eq.trans session'.names_eq.symm
  exact eq_of_entries_eq (tree.trans tree'.symm) (target.trans target'.symm)
    (entries_eq_of_text_eq (.of_built (session.built built)) (.of_built (session'.built built))
      names same)

/-- Setting an open variable tells the variable and the value. -/
theorem setVariable_inj (isOpen : name ∈ puzzle.openVariables) (assigned : value ≠ unassigned)
    (same : puzzle.setVariable name value = puzzle.setVariable name' value') :
    name = name' ∧ value = value' := by
  have values : value = if name = name' then value' else puzzle.valueOf name := by
    have left := puzzle.valueOf_setVariable name name value
    rw [same, valueOf_setVariable, if_pos rfl] at left
    exact left.symm
  split at values
  · next names => exact ⟨names, values⟩
  · exact absurd (values.trans (mem_openVariables.1 isOpen).2) assigned

/-- No successor comes twice. -/
theorem nodup_successors (puzzle : Puzzle) : puzzle.successors.Nodup := by
  have assigned : ∀ value ∈ digits, value ≠ unassigned := fun value digit =>
    ne_unassigned_of_le (mem_digits.1 digit).1
  refine List.nodup_flatMap.2 ⟨fun name isOpen => ?_, ?_⟩
  · refine List.Nodup.map_on ?_ (by decide)
    intro value digit value' _ same
    exact (setVariable_inj isOpen (assigned value digit) same).2
  · refine puzzle.nodup_openVariables.imp_of_mem fun isOpen _ differ => ?_
    rw [Function.onFun, List.disjoint_left]
    intro next member member'
    obtain ⟨value, digit, rfl⟩ := List.mem_map.1 member
    obtain ⟨value', -, same⟩ := List.mem_map.1 member'
    exact differ (setVariable_inj isOpen (assigned value digit) same.symm).1

/-- No puzzle is its own successor. -/
theorem notMem_successors (puzzle : Puzzle) : puzzle ∉ puzzle.successors := by
  intro member
  have less := length_openVariables_of_mem_successors member
  omega

/-! ## Steps -/

/-- Giving an open variable the value that it has further on leads towards that puzzle. -/
theorem Extends.towards (extended : puzzle.Extends other) (isOpen : name ∈ puzzle.openVariables) :
    (puzzle.setVariable name (other.valueOf name)).Extends other where
  tree_eq := extended.tree_eq
  target_eq := extended.target_eq
  names_eq := by
    rw [names_setVariable (mem_openVariables.1 isOpen).1]
    exact extended.names_eq
  kept other' assigned := by
    rw [valueOf_setVariable] at assigned ⊢
    split at assigned
    · next same => rw [if_pos same, same]
    · next differ =>
      rw [if_neg differ]
      exact extended.kept other' assigned

/-- Steps lead to every puzzle that extends the one they start from. -/
theorem Extends.reaches (extended : puzzle.Extends other) (wellFormed : other.WellFormed) :
    puzzle.Reaches other := by
  -- The induction is on the number of open variables, of which each step closes one.
  induction size : puzzle.openVariables.length using Nat.strong_induction_on
    generalizing puzzle with
  | _ size ih =>
    by_cases further : ∃ name ∈ puzzle.openVariables, other.valueOf name ≠ unassigned
    · obtain ⟨name, isOpen, assigned⟩ := further
      have digit : other.valueOf name ∈ digits :=
        mem_digits.2 ⟨least_le_of_ne_unassigned assigned, wellFormed.valueOf_le name⟩
      have successor : puzzle.setVariable name (other.valueOf name) ∈ puzzle.successors :=
        mem_successors.2 ⟨name, isOpen, _, digit, rfl⟩
      have less := length_openVariables_of_mem_successors successor
      exact .head successor (ih _ (by omega) (extended.towards isOpen) rfl)
    · have same : puzzle = other := by
        refine eq_of_valueOf_eq extended.tree_eq.symm extended.target_eq.symm
          extended.names_eq.symm fun name known => ?_
        by_cases unset : puzzle.valueOf name = unassigned
        · have isOpen := mem_openVariables.2 ⟨known, unset⟩
          rw [unset]
          by_contra differ
          exact further ⟨name, isOpen, Ne.symm differ⟩
        · exact (extended.kept name unset).symm
      rw [same]
      exact .refl

/-- Values of the same variables, up to 9 and the same where a variable had one, extend a puzzle. -/
theorem WellFormed.extends (wellFormed : puzzle.WellFormed) (tree : other.tree = puzzle.tree)
    (target : other.target = puzzle.target)
    (names : other.assignment.names = puzzle.assignment.names)
    (values : ∀ name ∈ puzzle.assignment.names, other.valueOf name ≤ greatestDigit ∧
      (puzzle.valueOf name ≠ unassigned → other.valueOf name = puzzle.valueOf name)) :
    puzzle.Extends other ∧ other.WellFormed := by
  have absent : ∀ name, name ∉ puzzle.assignment.names →
      puzzle.valueOf name = unassigned ∧ other.valueOf name = unassigned := by
    intro name unknown
    have unknown' : name ∉ other.assignment.names := names ▸ unknown
    rw [valueOf, valueOf, Assignment.get?_eq_none_iff.2 unknown,
      Assignment.get?_eq_none_iff.2 unknown']
    exact ⟨rfl, rfl⟩
  refine ⟨⟨tree, target, names, fun name assigned => ?_⟩, fun name => ?_, fun name => ?_⟩
  · by_cases known : name ∈ puzzle.assignment.names
    · exact (values name known).2 assigned
    · exact absurd (absent name known).1 assigned
  · rw [names, tree]
    exact wellFormed.mem_names_iff name
  · by_cases known : name ∈ puzzle.assignment.names
    · exact (values name known).1
    · rw [(absent name known).2]
      decide

/-- What can be said of the states of a puzzle's search, whatever the names of its variables are.
Whichever digits are given, the keys of two states are equal only if the states are; the successors
of a state have keys of their own, and not that of the state; and steps lead to the puzzles that
keep the values of the variables that have one and give any value up to 9 to the others. -/
theorem search_states (built : puzzle.Built) :
    (∀ left right, puzzle.Session left → puzzle.Session right →
      (space.key left = space.key right ↔ left = right)) ∧
    (∀ state, puzzle.Session state → ((space.successors state).map space.key).Nodup ∧
      ∀ next ∈ space.successors state, space.key next ≠ space.key state) ∧
    ∀ other, puzzle.Reaches other ↔ other.tree = puzzle.tree ∧ other.target = puzzle.target ∧
      other.assignment.names = puzzle.assignment.names ∧
      ∀ name ∈ puzzle.assignment.names, other.valueOf name ≤ greatestDigit ∧
        (puzzle.valueOf name ≠ unassigned → other.valueOf name = puzzle.valueOf name) := by
  have wellFormed := WellFormed.of_built built
  refine ⟨fun left right session session' => session.text_eq_iff built session', ?_,
    fun other => ⟨fun reaches => ?_, ?_⟩⟩
  · intro state session
    have onward : ∀ next ∈ state.successors, puzzle.Session next :=
      fun next successor => session.tail (.choose successor)
    refine ⟨state.nodup_successors.map_on ?_, fun next successor same => ?_⟩
    · intro left member right member' same
      exact ((onward left member).text_eq_iff built (onward right member')).1 same
    · obtain rfl := ((onward next successor).text_eq_iff built session).1 same
      exact next.notMem_successors successor
  · have extended := reaches.extends
    exact ⟨extended.tree_eq, extended.target_eq, extended.names_eq, fun name _ =>
      ⟨(reaches.wellFormed wellFormed).valueOf_le name, extended.kept name⟩⟩
  · rintro ⟨tree, target, names, values⟩
    obtain ⟨extended, wellFormed'⟩ := wellFormed.extends tree target names values
    exact extended.reaches wellFormed'

/-- The names look like values and like the end of the assignment. -/
def unreadable : Puzzle where
  tree := .add [.var "a: 1, b", .var "\x7d\n2"]
  assignment := ⟨[("a: 1, b", 0), ("\x7d\n2", 3)], by decide⟩
  target := 5

theorem search_states_unreadable : unreadable.Built ∧
    space.key (unreadable.setVariable "a: 1, b" 1) ≠
      space.key (unreadable.setVariable "\x7d\n2" 4) ∧
    ((space.successors unreadable).map space.key).Nodup ∧
    unreadable.Reaches (unreadable.setVariable "a: 1, b" 9) ∧
    ¬unreadable.Reaches (unreadable.setVariable "\x7d\n2" 4) := by
  have created : create unreadable.tree unreadable.target unreadable.assignment =
    .ok unreadable := rfl
  have built : unreadable.Built := .create created
  have chosen : unreadable.Session (unreadable.setVariable "a: 1, b" 1) :=
    .single (.choose (by decide))
  have replace : unreadable.assign "\x7d\n2" 4 =
    .ok (unreadable.setVariable "\x7d\n2" 4) := rfl
  have replaced : unreadable.Session (unreadable.setVariable "\x7d\n2" 4) :=
    .single (.assign replace)
  obtain ⟨apart, own, reached⟩ := search_states built
  refine ⟨built, fun same => ?_, (own unreadable .refl).1, (reached _).2 ?_, fun impossible => ?_⟩
  · exact absurd ((apart _ _ chosen replaced).1 same) (by decide)
  · exact ⟨rfl, rfl, rfl, by decide⟩
  · obtain ⟨-, -, -, kept⟩ := (reached _).1 impossible
    exact absurd ((kept "\x7d\n2" (by decide)).2 (by decide)) (by decide)

end SearchSpace.Puzzle
