import SearchSpace.Proofs.Puzzle.Creation

/-!
# Digits given one after another

Digits may be given to the variables of a fresh puzzle in any order and over older ones. What counts
is the last digit of each variable, and it counts as if the puzzle had been created with it. The
first digit that cannot be given ends the matter, and the puzzle reached until then is still there.
-/

namespace SearchSpace.Puzzle

/-- What comes of giving digits to variables one after another. -/
inductive Assigned where
  | done (puzzle : Puzzle)
  /-- The first of the pairs that are left is refused, and the puzzle before it is held. -/
  | refused (held : Puzzle) (left : List (String × UInt8)) (reason : Invalid)
deriving DecidableEq

/-- Gives digits to variables one after another, up to the first pair that is refused. -/
def assignAll : List (String × UInt8) → Puzzle → Assigned
  | [], puzzle => .done puzzle
  | (name, value) :: rest, puzzle =>
    match puzzle.assign name value with
    | .ok next => assignAll rest next
    | .error reason => .refused puzzle ((name, value) :: rest) reason

/-- The name is that of a variable of the expression, and the value is a digit from 1 to 9. -/
structure Assignable (tree : Expr) (pair : String × UInt8) : Prop where
  occurs : .var pair.1 ∈ tree.nodes
  least_le : leastDigit ≤ pair.2
  le_greatest : pair.2 ≤ greatestDigit

instance (tree : Expr) (pair : String × UInt8) : Decidable (Assignable tree pair) :=
  decidable_of_iff (.var pair.1 ∈ tree.nodes ∧ leastDigit ≤ pair.2 ∧ pair.2 ≤ greatestDigit)
    ⟨fun ⟨occurs, least, greatest⟩ => ⟨occurs, least, greatest⟩,
      fun pair => ⟨pair.occurs, pair.least_le, pair.le_greatest⟩⟩

/-- The reason for which a pair is refused: its value counts before its name. -/
def refusalOfPair (pair : String × UInt8) : Invalid :=
  if leastDigit ≤ pair.2 ∧ pair.2 ≤ greatestDigit then .unknownVariable pair.1
  else .outOfRange pair.1 pair.2

/-- The puzzle with the values of the pairs, whether they can be assigned or not. -/
def setVariables (puzzle : Puzzle) (pairs : List (String × UInt8)) : Puzzle :=
  { puzzle with assignment := puzzle.assignment.insertAll pairs }

variable {puzzle start : Puzzle} {tree : Expr} {target : UInt64} {pair : String × UInt8}
  {pairs : List (String × UInt8)}

theorem WellFormed.contains_iff (wellFormed : puzzle.WellFormed) (name : String) :
    puzzle.assignment.contains name = true ↔ .var name ∈ puzzle.tree.nodes := by
  rw [Assignment.contains_iff_mem, wellFormed.mem_names_iff, Expr.mem_names_iff]

theorem outside_iff {value : UInt8} : (value < leastDigit || greatestDigit < value) = true ↔
    ¬(leastDigit ≤ value ∧ value ≤ greatestDigit) := by
  rw [Bool.or_eq_true, decide_eq_true_eq, decide_eq_true_eq, not_and_or, UInt8.not_le,
    UInt8.not_le]

theorem assign_of_assignable (wellFormed : puzzle.WellFormed)
    (good : Assignable puzzle.tree pair) :
    puzzle.assign pair.1 pair.2 = .ok (puzzle.setVariable pair.1 pair.2) := by
  have inRange : ¬(pair.2 < leastDigit || greatestDigit < pair.2) = true := by
    rw [outside_iff, not_not]
    exact ⟨good.least_le, good.le_greatest⟩
  rw [assign, if_neg inRange, if_pos ((wellFormed.contains_iff pair.1).2 good.occurs)]

theorem assign_of_not_assignable (wellFormed : puzzle.WellFormed)
    (bad : ¬Assignable puzzle.tree pair) :
    puzzle.assign pair.1 pair.2 = .error (refusalOfPair pair) := by
  rw [assign, refusalOfPair]
  by_cases digit : leastDigit ≤ pair.2 ∧ pair.2 ≤ greatestDigit
  · have unknown : ¬puzzle.assignment.contains pair.1 = true := by
      rw [wellFormed.contains_iff]
      exact fun occurs => bad ⟨occurs, digit.1, digit.2⟩
    rw [if_neg (mt outside_iff.1 (not_not.2 digit)), if_neg unknown, if_pos digit]
  · rw [if_pos (outside_iff.2 digit), if_neg digit]

/-- Either all pairs can be assigned and are, or those before the first that cannot be. -/
theorem assignAll_cases (wellFormed : puzzle.WellFormed) (pairs : List (String × UInt8)) :
    (∀ pair ∈ pairs, Assignable puzzle.tree pair) ∧
      assignAll pairs puzzle = .done (puzzle.setVariables pairs) ∨
    ∃ before pair after, pairs = before ++ pair :: after ∧
      (∀ earlier ∈ before, Assignable puzzle.tree earlier) ∧ ¬Assignable puzzle.tree pair ∧
      assignAll pairs puzzle =
        .refused (puzzle.setVariables before) (pair :: after) (refusalOfPair pair) := by
  -- What can be assigned depends on the expression only, which every puzzle on the way shares.
  induction pairs generalizing puzzle with
  | nil => exact .inl ⟨by simp, rfl⟩
  | cons pair rest ih =>
    by_cases good : Assignable puzzle.tree pair
    · have known : pair.1 ∈ puzzle.assignment.names :=
        Assignment.contains_iff_mem.1 ((wellFormed.contains_iff pair.1).2 good.occurs)
      have assigned : assignAll (pair :: rest) puzzle =
          assignAll rest (puzzle.setVariable pair.1 pair.2) := by
        rw [assignAll, assign_of_assignable wellFormed good]
      rw [assigned]
      rcases ih (wellFormed.setVariable known good.le_greatest) with ⟨allGood, done⟩ |
        ⟨before, bad, after, rfl, sound, fault, refused⟩
      · exact .inl ⟨List.forall_mem_cons.2 ⟨good, allGood⟩, done⟩
      · exact .inr ⟨pair :: before, bad, after, rfl, List.forall_mem_cons.2 ⟨good, sound⟩, fault,
          refused⟩
    · refine .inr ⟨[], pair, rest, rfl, by simp, good, ?_⟩
      rw [assignAll, assign_of_not_assignable wellFormed good]
      rfl

theorem assignAll_of_forall_assignable (wellFormed : puzzle.WellFormed)
    (good : ∀ pair ∈ pairs, Assignable puzzle.tree pair) :
    assignAll pairs puzzle = .done (puzzle.setVariables pairs) := by
  rcases assignAll_cases wellFormed pairs with ⟨-, done⟩ | ⟨before, pair, after, rfl, -, bad, -⟩
  · exact done
  · exact absurd (good pair (by simp)) bad

/-- Creating a puzzle with the last value of each variable is setting them in the fresh puzzle. -/
theorem create_ofList (created : ofTree tree target = .ok start)
    (good : ∀ pair ∈ pairs, Assignable tree pair) :
    create tree target (.ofList pairs) = .ok (start.setVariables pairs) := by
  have accepted : ∀ name value, (Assignment.ofList pairs).get? name = some value →
      ¬Refuses tree name value := by
    intro name value last
    rw [Assignment.get?_ofList] at last
    obtain ⟨before, after, split, -⟩ := List.lookup_eq_some_iff.1 last
    have member : (name, value) ∈ pairs := by
      rw [← List.mem_reverse, split]
      simp
    exact not_refuses_iff.2 ⟨(good _ member).occurs, (good _ member).le_greatest⟩
  obtain ⟨flawless, tree_eq, target_eq, -⟩ := eq_of_create created
  obtain ⟨puzzle, bulk⟩ := exists_create_iff.2 ⟨Expr.flaw?_eq_none_iff.1 flawless, accepted⟩
  obtain ⟨-, tree_eq', target_eq', -⟩ := eq_of_create bulk
  have sameValues : puzzle.assignment = start.assignment.insertAll pairs := by
    apply Assignment.ext_get?
    intro name
    rw [get?_of_create bulk, Assignment.get?_insertAll, get?_of_create created,
      Assignment.get?_ofList]
    rfl
  rw [bulk, setVariables, ← sameValues, tree_eq, ← tree_eq', target_eq, ← target_eq']

/-- Giving digits one after another and all at once come to the same. From the fresh puzzle of an
expression without flaws, pairs that can be assigned lead, in any order and with any repetitions, to
the puzzle that is created with the last digit of each variable. So where the last digits are the
same the puzzles are, and their keys. If some pair cannot be assigned, the first one is refused
that cannot be, with the puzzle held to which the pairs before it led. -/
theorem assignAll_agrees_with_create (tree : Expr) (target : UInt64)
    (flawless : tree.flaw? = none) : ∃ start, ofTree tree target = .ok start ∧
    (∀ pairs, (∀ pair ∈ pairs, Assignable tree pair) →
      (∀ name, (Assignment.ofList pairs).get? name = pairs.reverse.lookup name) ∧
      ∃ puzzle, assignAll pairs start = .done puzzle ∧
        create tree target (.ofList pairs) = .ok puzzle) ∧
    (∀ pairs pairs', (∀ pair ∈ pairs, Assignable tree pair) →
      (∀ pair ∈ pairs', Assignable tree pair) →
      (∀ name, pairs.reverse.lookup name = pairs'.reverse.lookup name) →
      ∃ puzzle puzzle', assignAll pairs start = .done puzzle ∧
        assignAll pairs' start = .done puzzle' ∧ puzzle = puzzle' ∧
        space.key puzzle = space.key puzzle') ∧
    ∀ pairs, (∃ pair ∈ pairs, ¬Assignable tree pair) →
      ∃ before pair after held, pairs = before ++ pair :: after ∧
        (∀ earlier ∈ before, Assignable tree earlier) ∧ ¬Assignable tree pair ∧
        assignAll before start = .done held ∧
        held.assign pair.1 pair.2 = .error (refusalOfPair pair) ∧
        assignAll pairs start = .refused held (pair :: after) (refusalOfPair pair) := by
  obtain ⟨start, created⟩ : ∃ start, ofTree tree target = .ok start :=
    exists_create_iff.2 ⟨Expr.flaw?_eq_none_iff.1 flawless, nofun⟩
  have wellFormed : start.WellFormed := .of_create created
  obtain ⟨-, rfl, -, -⟩ := eq_of_create created
  refine ⟨start, created, ?bulk, ?order, ?stopped⟩
  case bulk =>
    intro pairs good
    exact ⟨Assignment.get?_ofList pairs, _, assignAll_of_forall_assignable wellFormed good,
      create_ofList created good⟩
  case order =>
    intro pairs pairs' good good' same
    have sameValues : Assignment.ofList pairs = Assignment.ofList pairs' := by
      apply Assignment.ext_get?
      intro name
      rw [Assignment.get?_ofList, Assignment.get?_ofList, same]
    have created' := create_ofList created good
    rw [sameValues, create_ofList created good'] at created'
    have samePuzzle : start.setVariables pairs = start.setVariables pairs' :=
      (Except.ok.inj created').symm
    exact ⟨_, _, assignAll_of_forall_assignable wellFormed good,
      assignAll_of_forall_assignable wellFormed good', samePuzzle, congrArg _ samePuzzle⟩
  case stopped =>
    rintro pairs ⟨pair, member, bad⟩
    rcases assignAll_cases wellFormed pairs with ⟨good, -⟩ |
      ⟨before, first, after, split, sound, fault, refused⟩
    · exact absurd (good pair member) bad
    · have held : (start.setVariables before).WellFormed := .of_create (create_ofList created sound)
      exact ⟨before, first, after, _, split, sound, fault,
        assignAll_of_forall_assignable wellFormed sound,
        assign_of_not_assignable held fault, refused⟩

/-- In `a + b * 2` the later digit of `b` counts, and a value 0 for it is refused before the name
`c` is looked at. -/
theorem assignAll_agrees_with_create_weighted : ∃ start puzzle held,
    ofTree (.add [.var "a", .mul [.var "b", .num 2]]) 9 = .ok start ∧
    assignAll [("b", 9), ("a", 1), ("b", 4)] start = .done puzzle ∧
    assignAll [("b", 4), ("a", 1)] start = .done puzzle ∧
    create (.add [.var "a", .mul [.var "b", .num 2]]) 9 (.ofList [("b", 9), ("a", 1), ("b", 4)]) =
      .ok puzzle ∧
    assignAll [("a", 1)] start = .done held ∧
    assignAll [("a", 1), ("b", 0), ("c", 3)] start =
      .refused held [("b", 0), ("c", 3)] (.outOfRange "b" 0) := by
  obtain ⟨start, created, bulk, same, refused⟩ :=
    assignAll_agrees_with_create (.add [.var "a", .mul [.var "b", .num 2]]) 9 (by decide)
  obtain ⟨-, puzzle, done, inBulk⟩ := bulk [("b", 9), ("a", 1), ("b", 4)] (by decide)
  obtain ⟨puzzle', final, done', final', rfl, -⟩ :=
    same [("b", 9), ("a", 1), ("b", 4)] [("b", 4), ("a", 1)] (by decide) (by decide) (by
      intro name
      by_cases isB : name = "b" <;> simp [Assignment.lookup_cons_eq_ite, isB])
  obtain rfl := Assigned.done.inj (done.symm.trans done')
  obtain ⟨before, pair, after, held, split, sound, bad, reached, -, stopped⟩ :=
    refused [("a", 1), ("b", 0), ("c", 3)] (by decide)
  refine ⟨start, puzzle, held, created, done, final', inBulk, ?_⟩
  -- The pair before `b` can be assigned, and `b` cannot, so that `b` is where it stops.
  rcases before with _ | ⟨first, _ | ⟨second, before⟩⟩
  · obtain ⟨rfl, -⟩ := List.cons.inj split
    exact absurd (by decide) bad
  · obtain ⟨rfl, rest⟩ := List.cons.inj split
    obtain ⟨rfl, rfl⟩ := List.cons.inj rest
    exact ⟨reached, stopped⟩
  · obtain ⟨rfl, rest⟩ := List.cons.inj split
    obtain ⟨rfl, -⟩ := List.cons.inj rest
    exact absurd (sound ("b", 0) (by simp)) (by decide)

end SearchSpace.Puzzle
