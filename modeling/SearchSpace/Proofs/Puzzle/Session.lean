import Mathlib.Logic.Relation
import SearchSpace.Proofs.Json.Accepted
import SearchSpace.Proofs.Puzzle.Creation

/-!
# Sessions with a puzzle

However a puzzle comes about, and whatever digits are given and whatever successors are chosen after
that, in any order: it stays well formed, its expression and its target stay the same, and building
it again from its parts leads back to it.
-/

namespace SearchSpace.Puzzle

/-- The ways to begin with a puzzle. -/
inductive Begun (puzzle : Puzzle) : Prop
  | ofTree {tree : Expr} {target : UInt64} : ofTree tree target = .ok puzzle → Begun puzzle
  | create {tree : Expr} {target : UInt64} {assigned : Assignment} :
      create tree target assigned = .ok puzzle → Begun puzzle
  | described {description : Description} : description.puzzle = .ok puzzle → Begun puzzle
  | ofJson {document : String} : ofJson document = .ok puzzle → Begun puzzle

/-- One move: a variable is given a digit, over an older one, or a successor is chosen. -/
inductive Move (puzzle next : Puzzle) : Prop
  | assign {name : String} {value : UInt8} : puzzle.assign name value = .ok next → Move puzzle next
  | choose : next ∈ puzzle.successors → Move puzzle next

/-- Any number of moves. -/
def Session : Puzzle → Puzzle → Prop := Relation.ReflTransGen Move

variable {puzzle start next : Puzzle}

/-- Every way to begin creates the puzzle of a tree, a target and values. -/
theorem Begun.exists_create (begun : Begun puzzle) : ∃ tree target assigned,
    Puzzle.create tree target assigned = .ok puzzle := by
  cases begun with
  | ofTree created => exact ⟨_, _, _, created⟩
  | create created => exact ⟨_, _, _, created⟩
  | described created => exact ⟨_, _, _, created⟩
  | ofJson loaded =>
    obtain ⟨description, -, built⟩ := exists_description loaded
    exact ⟨_, _, _, built⟩

theorem Begun.built (begun : Begun puzzle) : puzzle.Built := by
  obtain ⟨tree, target, assigned, created⟩ := begun.exists_create
  exact .create created

theorem Move.built (move : Move puzzle next) (built : puzzle.Built) : next.Built := by
  cases move with
  | assign assigned => exact .assign built assigned
  | choose successor => exact .successor built successor

/-- A move changes the value of one variable and nothing else. -/
theorem Move.exists_eq_setVariable (move : Move puzzle next) :
    ∃ name ∈ puzzle.assignment.names, ∃ value, next = puzzle.setVariable name value := by
  cases move with
  | assign assigned =>
    obtain ⟨-, known, eq⟩ := eq_of_assign assigned
    exact ⟨_, known, _, eq⟩
  | choose successor =>
    obtain ⟨name, isOpen, value, -, eq⟩ := mem_successors.1 successor
    exact ⟨name, (mem_openVariables.1 isOpen).1, value, eq.symm⟩

theorem Session.built (session : start.Session puzzle) (built : start.Built) : puzzle.Built := by
  induction session with
  | refl => exact built
  | tail _ move ih => exact move.built ih

theorem Session.same_equation (session : start.Session puzzle) :
    puzzle.tree = start.tree ∧ puzzle.target = start.target := by
  induction session with
  | refl => exact ⟨rfl, rfl⟩
  | tail _ move ih =>
    obtain ⟨name, -, value, rfl⟩ := move.exists_eq_setVariable
    exact ih

theorem Session.names_eq (session : start.Session puzzle) :
    puzzle.assignment.names = start.assignment.names := by
  induction session with
  | refl => rfl
  | tail _ move ih =>
    obtain ⟨name, known, value, rfl⟩ := move.exists_eq_setVariable
    rw [names_setVariable known, ih]

/-- A lookup that knows the values of the variables in the assignment is all that matters. -/
theorem WellFormed.eval_eq_valueFilling (wellFormed : puzzle.WellFormed) {fill : UInt8}
    {lookup : String → UInt64} (known : ∀ name value, puzzle.assignment.get? name = some value →
      lookup name = (if value = unassigned then fill else value).toUInt64) :
    puzzle.tree.eval lookup = puzzle.valueFilling fill := by
  apply Expr.eval_congr
  intro name member
  have entered := get?_eq_some_valueOf ((wellFormed.mem_names_iff name).2 member)
  rw [known name _ entered, filledValue_eq]

/-- Entering the values of a well-formed puzzle again gives its assignment. -/
theorem WellFormed.enterAll_eq (wellFormed : puzzle.WellFormed) :
    enterAll puzzle.assignment.entries (Assignment.empty.cover puzzle.tree.names unassigned) =
      .ok puzzle.assignment := by
  have sound : ∀ entry ∈ puzzle.assignment.entries, entry.2 ≤ greatestDigit ∧
      entry.1 ∈ (Assignment.empty.cover puzzle.tree.names unassigned).names := by
    intro entry member
    have known : entry.1 ∈ puzzle.assignment.names := List.mem_map_of_mem member
    exact ⟨wellFormed.entries_le entry member,
      Assignment.mem_names_cover_empty.2 ((wellFormed.mem_names_iff _).1 known)⟩
  obtain ⟨final, entered⟩ := exists_enterAll sound
  rw [entered]
  congr 1
  apply Assignment.ext_get?
  intro name
  rw [get?_enterAll puzzle.assignment.nodup_names entered, Assignment.get?_cover_empty]
  change (puzzle.assignment.get? name).or _ = puzzle.assignment.get? name
  cases held : puzzle.assignment.get? name with
  | some value => rfl
  | none =>
    have absent := mt (wellFormed.mem_names_iff name).2 (Assignment.get?_eq_none_iff.1 held)
    rw [if_neg absent]
    rfl

/-- A well-formed puzzle is created of its parts, and so is the same puzzle with another target. -/
theorem WellFormed.create_eq (wellFormed : puzzle.WellFormed)
    (flawless : puzzle.tree.flaw? = none) (target : UInt64) :
    Puzzle.create puzzle.tree target puzzle.assignment =
      .ok { puzzle with target := target } := by
  unfold Puzzle.create
  rw [flawless, wellFormed.enterAll_eq]
  rfl

/-- However a session goes, the expression has no flaws, the assignment holds its variables and no
others, with values up to 9, and expression and target are those of the start. So evaluation looks
up nothing that is not in the assignment, and the puzzle can be created of its parts. -/
theorem session_invariant (begun : start.Begun) (session : start.Session puzzle) :
    puzzle.tree.flaw? = none ∧
      (∀ name, name ∈ puzzle.assignment.names ↔ name ∈ puzzle.tree.names) ∧
      (∀ entry ∈ puzzle.assignment.entries, entry.2 ≤ greatestDigit) ∧
      puzzle.tree = start.tree ∧ puzzle.target = start.target ∧
      (∀ fill lookup, (∀ name value, puzzle.assignment.get? name = some value →
        lookup name = (if value = unassigned then fill else value).toUInt64) →
        puzzle.tree.eval lookup = puzzle.valueFilling fill) ∧
      (∀ target, create puzzle.tree target puzzle.assignment =
        .ok { puzzle with target := target }) ∧
      create puzzle.tree puzzle.target puzzle.assignment = .ok puzzle := by
  have built := session.built begun.built
  have flawless := flaw?_eq_none_of_built built
  have wellFormed := WellFormed.of_built built
  obtain ⟨tree_eq, target_eq⟩ := session.same_equation
  exact ⟨flawless, wellFormed.mem_names_iff, wellFormed.entries_le, tree_eq, target_eq,
    fun fill lookup known => wellFormed.eval_eq_valueFilling known,
    wellFormed.create_eq flawless, wellFormed.create_eq flawless puzzle.target⟩

/-- `a + b * 2` is to be 9. -/
def weightedText : String :=
  "\x7b\"tree\": \x7b\"add\": [\x7b\"var\": \"a\"\x7d, " ++
    "\x7b\"mul\": [\x7b\"var\": \"b\"\x7d, \x7b\"num\": 2\x7d]\x7d]\x7d, " ++
    "\"target\": 9, \"variables\": \x7b\"b\": 3\x7d\x7d"

/-- The description that the document holds. -/
def weighted : Description where
  tree := .add [.var "a", .mul [.var "b", .num 2]]
  target := 9
  assignment := .ofList [("b", 3)]

/-- The digit of `b` is replaced, and a successor is chosen in which `a` has one, too. -/
theorem session_invariant_weighted : ∃ start puzzle, ofJson weightedText = .ok start ∧
    start.Session puzzle ∧ puzzle.assignment.entries = [("a", 1), ("b", 4)] ∧
    create start.tree start.target puzzle.assignment = .ok puzzle := by
  have known : (Description.ofJson weightedText).toOption = some weighted := by decide +kernel
  have isRead := Json.eq_ok_of_toOption_eq_some known
  obtain ⟨start, built, start_eq⟩ : ∃ start, weighted.puzzle = .ok start ∧
      start = ⟨weighted.tree, .ofList [("a", 0), ("b", 3)], 9⟩ := ⟨_, by rfl, rfl⟩
  have loaded : ofJson weightedText = .ok start := by
    unfold ofJson
    rw [isRead]
    simp only [built]
    rfl
  have begun : start.Begun := .ofJson loaded
  have replace : start.assign "b" 4 = .ok (start.setVariable "b" 4) := by
    rw [start_eq]
    rfl
  have choose : (start.setVariable "b" 4).setVariable "a" 1 ∈
      (start.setVariable "b" 4).successors := by
    rw [start_eq]
    decide
  have session : start.Session ((start.setVariable "b" 4).setVariable "a" 1) :=
    .tail (.single (.assign replace)) (.choose choose)
  obtain ⟨-, -, -, -, -, -, -, rebuilt⟩ := session_invariant begun session
  refine ⟨start, _, loaded, session, ?_, rebuilt⟩
  rw [start_eq]
  decide

end SearchSpace.Puzzle
