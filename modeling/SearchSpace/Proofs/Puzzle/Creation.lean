import SearchSpace.Proofs.Expr.Nodes
import SearchSpace.Proofs.Puzzle.Described
import SearchSpace.Proofs.Text.ByteOrder

/-!
# Which puzzles can be created

Neither the expression nor the values may have a fault. Of several faults one is reported: the first
in the expression, if there is any, and otherwise that of the first name whose entry has one.
-/

namespace SearchSpace.Puzzle

/-- The value is none that a variable can have, or there is no such variable. -/
def Refuses (tree : Expr) (name : String) (value : UInt8) : Prop :=
  greatestDigit < value ∨ .var name ∉ tree.nodes

/-- Of the entries that are refused this one has the least name, byte by byte. -/
structure FirstRefused (tree : Expr) (assigned : Assignment) (name : String) (value : UInt8) :
    Prop where
  entered : assigned.get? name = some value
  refused : Refuses tree name value
  first : ∀ other value', assigned.get? other = some value' → Refuses tree other value' →
    other ≠ name → Text.bytes name < Text.bytes other

/-- The reason for which an entry is refused: its value counts before its name. -/
def refusal (name : String) (value : UInt8) : Invalid :=
  if greatestDigit < value then .notADigit name value else .unknownVariable name

variable {tree : Expr} {target : UInt64} {assigned assignment : Assignment} {puzzle : Puzzle}
  {entries : List (String × UInt8)} {reason : Invalid} {name other : String} {value value' : UInt8}

theorem not_refuses_iff :
    ¬Refuses tree name value ↔ .var name ∈ tree.nodes ∧ value ≤ greatestDigit := by
  rw [Refuses, not_or, not_not, UInt8.not_lt, and_comm]

/-- Only one entry is the first. -/
theorem FirstRefused.unique (first : FirstRefused tree assigned name value)
    (first' : FirstRefused tree assigned other value') : name = other ∧ value = value' := by
  have same : name = other := by
    by_contra differ
    have less := first.first other value' first'.entered first'.refused (Ne.symm differ)
    have greater := first'.first name value first.entered first.refused differ
    exact List.lt_asymm less greater
  subst same
  have values := first.entered.symm.trans first'.entered
  exact ⟨rfl, Option.some.inj values⟩

/-- Either all entries are entered, or one is refused and those before it have no fault. -/
theorem enterAll_cases (entries : List (String × UInt8)) (assignment : Assignment) :
    (∃ final, enterAll entries assignment = .ok final) ∧
      (∀ entry ∈ entries, entry.2 ≤ greatestDigit ∧ entry.1 ∈ assignment.names) ∨
    ∃ before entry after, entries = before ++ entry :: after ∧
      (∀ earlier ∈ before, earlier.2 ≤ greatestDigit ∧ earlier.1 ∈ assignment.names) ∧
      (greatestDigit < entry.2 ∨ entry.1 ∉ assignment.names) ∧
      enterAll entries assignment = .error (refusal entry.1 entry.2) := by
  induction entries generalizing assignment with
  | nil => exact .inl ⟨⟨assignment, rfl⟩, by simp⟩
  | cons entry rest ih =>
    obtain ⟨name, value⟩ := entry
    rw [enterAll]
    split
    · next large =>
      refine .inr ⟨[], (name, value), rest, rfl, by simp, .inl large, ?_⟩
      rw [refusal, if_pos large]
    next small =>
    split
    · next known =>
      rw [Assignment.contains_iff_mem] at known
      have good : value ≤ greatestDigit ∧ name ∈ assignment.names := ⟨UInt8.not_lt.1 small, known⟩
      have rest_cases := ih (assignment.insert name value)
      rw [Assignment.names_insert known] at rest_cases
      rcases rest_cases with ⟨entered, sound⟩ | ⟨before, entry, after, rfl, sound, fault, refused⟩
      · exact .inl ⟨entered, List.forall_mem_cons.2 ⟨good, sound⟩⟩
      · exact .inr ⟨(name, value) :: before, entry, after, rfl,
          List.forall_mem_cons.2 ⟨good, sound⟩, fault, refused⟩
    · next unknown =>
      rw [Assignment.contains_iff_mem] at unknown
      refine .inr ⟨[], (name, value), rest, rfl, by simp, .inr unknown, ?_⟩
      rw [refusal, if_neg small]

/-- Values up to 9 of names that are there are all entered. -/
theorem exists_enterAll
    (sound : ∀ entry ∈ entries, entry.2 ≤ greatestDigit ∧ entry.1 ∈ assignment.names) :
    ∃ final, enterAll entries assignment = .ok final := by
  rcases enterAll_cases entries assignment with ⟨entered, -⟩ |
    ⟨before, entry, after, rfl, -, fault, -⟩
  · exact entered
  · obtain ⟨small, known⟩ := sound entry (by simp)
    rcases fault with large | unknown
    · exact absurd large (UInt8.not_lt.2 small)
    · exact absurd known unknown

/-- The variables that a puzzle begins with are those of its expression. -/
theorem mem_names_cover_iff :
    name ∈ (Assignment.empty.cover tree.names unassigned).names ↔ .var name ∈ tree.nodes := by
  rw [Assignment.mem_names_cover_empty, Expr.mem_names_iff]

/-- What becomes of a puzzle: its expression is refused, it is created, or an entry is refused. -/
theorem create_cases (tree : Expr) (target : UInt64) (assigned : Assignment) :
    (∃ flaw, tree.FirstFlaw flaw ∧ create tree target assigned = .error (.malformed flaw)) ∨
    tree.Sound ∧ ((∃ puzzle, create tree target assigned = .ok puzzle) ∧
        (∀ name value, assigned.get? name = some value → ¬Refuses tree name value) ∨
      ∃ name value, FirstRefused tree assigned name value ∧
        create tree target assigned = .error (refusal name value)) := by
  cases flawed : tree.flaw? with
  | some flaw =>
    refine .inl ⟨flaw, Expr.flaw?_eq_some_iff.1 flawed, ?_⟩
    rw [create, flawed]
  | none =>
    refine .inr ⟨Expr.flaw?_eq_none_iff.1 flawed, ?_⟩
    simp only [create, flawed]
    rcases enterAll_cases assigned.entries (Assignment.empty.cover tree.names unassigned) with
      ⟨⟨final, entered⟩, sound⟩ | ⟨before, ⟨name, value⟩, after, split, sound, fault, refused⟩
    · refine .inl ⟨⟨_, by rw [entered]; rfl⟩, fun name value found => not_refuses_iff.2 ?_⟩
      obtain ⟨small, known⟩ := sound _ (Assignment.get?_eq_some_iff.1 found)
      exact ⟨mem_names_cover_iff.1 known, small⟩
    · rw [mem_names_cover_iff] at fault
      refine .inr ⟨name, value, ⟨?_, fault, fun other value' found faulty differ => ?_⟩, ?_⟩
      · rw [Assignment.get?_eq_some_iff, split]
        simp
      · -- The other entry is not among those before, which are sound, and so its name is greater.
        have member := Assignment.get?_eq_some_iff.1 found
        have ordered := assigned.ordered
        rw [split] at member ordered
        rcases List.mem_append.1 member with earlier | later
        · obtain ⟨small, known⟩ := sound _ earlier
          exact absurd faulty (not_refuses_iff.2 ⟨mem_names_cover_iff.1 known, small⟩)
        · rcases List.mem_cons.1 later with same | later
          · cases same
            exact absurd rfl differ
          · have below := List.pairwise_cons.1 (List.pairwise_append.1 ordered).2.1
            exact Text.bytes_lt_iff.2 (below.1 _ later)
      · rw [refused]
        rfl

/-- A puzzle is created of a sound expression if no entry is refused. -/
theorem exists_create_iff : (∃ puzzle, create tree target assigned = .ok puzzle) ↔
    tree.Sound ∧ ∀ name value, assigned.get? name = some value → ¬Refuses tree name value := by
  rcases create_cases tree target assigned with ⟨flaw, first, created⟩ |
    ⟨sound, ⟨created, accepted⟩ | ⟨name, value, first, created⟩⟩
  · refine iff_of_false ?_ fun ⟨sound, _⟩ => first.not_sound sound
    rw [created]
    exact fun ⟨_, impossible⟩ => nomatch impossible
  · exact iff_of_true created ⟨sound, accepted⟩
  · refine iff_of_false ?_ fun ⟨_, accepted⟩ => accepted name value first.entered first.refused
    rw [created]
    exact fun ⟨_, impossible⟩ => nomatch impossible

/-- The reason is that of the first fault. -/
theorem create_eq_error_iff : create tree target assigned = .error reason ↔
    (∃ flaw, tree.FirstFlaw flaw ∧ reason = .malformed flaw) ∨
      tree.Sound ∧ ∃ name value, FirstRefused tree assigned name value ∧
        reason = refusal name value := by
  rcases create_cases tree target assigned with ⟨flaw, first, created⟩ |
    ⟨sound, ⟨⟨puzzle, created⟩, accepted⟩ | ⟨name, value, first, created⟩⟩
  · rw [created, Except.error.injEq]
    constructor
    · rintro rfl
      exact .inl ⟨flaw, first, rfl⟩
    · rintro (⟨flaw', first', rfl⟩ | ⟨sound, -⟩)
      · have flaws := (Expr.flaw?_eq_some_iff.2 first).symm.trans (Expr.flaw?_eq_some_iff.2 first')
        rw [Option.some.inj flaws]
      · exact absurd sound first.not_sound
  · refine iff_of_false ?_ ?_
    · rw [created]
      exact fun impossible => nomatch impossible
    · rintro (⟨flaw, first, -⟩ | ⟨-, name, value, first, -⟩)
      · exact first.not_sound sound
      · exact accepted name value first.entered first.refused
  · rw [created, Except.error.injEq]
    constructor
    · rintro rfl
      exact .inr ⟨sound, name, value, first, rfl⟩
    · rintro (⟨flaw, first', -⟩ | ⟨-, other, value', first', rfl⟩)
      · exact absurd sound first'.not_sound
      · obtain ⟨rfl, rfl⟩ := first.unique first'
        rfl

/-- Which puzzles are created, what they hold, and why the others are refused. A puzzle is created
if no operator lacks operands, no variable has the empty name, and all values are up to 9 and of
variables of the expression; it holds these values, and 0 for the other variables. Otherwise the
reason is that of the first faulty node, whatever the values are, and if there is none that of the
faulty entry with the least name. -/
theorem create_exact (tree : Expr) (target : UInt64) (assigned : Assignment) :
    ((∃ puzzle, create tree target assigned = .ok puzzle) ↔
      (.add [] ∉ tree.nodes ∧ .mul [] ∉ tree.nodes ∧ .var "" ∉ tree.nodes) ∧
        ∀ name value, assigned.get? name = some value →
          .var name ∈ tree.nodes ∧ value ≤ greatestDigit) ∧
    (∀ puzzle, create tree target assigned = .ok puzzle →
      puzzle.tree = tree ∧ puzzle.target = target ∧ ∀ name, puzzle.assignment.get? name =
        if .var name ∈ tree.nodes then some ((assigned.get? name).getD unassigned) else none) ∧
    ∀ reason, create tree target assigned = .error reason ↔
      (∃ flaw, tree.FirstFlaw flaw ∧ reason = .malformed flaw) ∨
        tree.Sound ∧ ∃ name value, FirstRefused tree assigned name value ∧
          reason = refusal name value := by
  refine ⟨?_, fun puzzle created => ?_, fun reason => create_eq_error_iff⟩
  · simp only [exists_create_iff, Expr.sound_iff, not_refuses_iff]
  · obtain ⟨-, tree_eq, target_eq, -⟩ := eq_of_create created
    refine ⟨tree_eq, target_eq, fun name => ?_⟩
    simp only [get?_of_create created, Expr.mem_names_iff tree]
    cases found : assigned.get? name with
    | none => by_cases member : .var name ∈ tree.nodes <;> simp [member]
    | some value =>
      obtain ⟨-, accepted⟩ := exists_create_iff.1 ⟨puzzle, created⟩
      obtain ⟨known, -⟩ := not_refuses_iff.1 (accepted name value found)
      simp [known]

/-- The operator comes before the variable without a name, and `b` before `é`. The value of `b`
counts, although there is no such variable. -/
theorem create_exact_faults :
    (Expr.add [.var "a", .mul [], .var ""]).FirstFlaw (.noOperands '*') ∧
    FirstRefused (.add [.var "a", .var "é"]) (.ofList [("é", 12), ("b", 10), ("a", 9)]) "b" 10 := by
  obtain ⟨-, -, malformed⟩ := create_exact (.add [.var "a", .mul [], .var ""]) 5
    (.ofList [("a", 12)])
  obtain ⟨-, -, refused⟩ := create_exact (.add [.var "a", .var "é"]) 5
    (.ofList [("é", 12), ("b", 10), ("a", 9)])
  constructor
  · rcases (malformed (.malformed (.noOperands '*'))).1 rfl with ⟨flaw, first, same⟩ |
      ⟨-, name, value, -, impossible⟩
    · cases same
      exact first
    · unfold refusal at impossible
      split at impossible <;> cases impossible
  · rcases (refused (.notADigit "b" 10)).1 rfl with ⟨flaw, -, impossible⟩ |
      ⟨-, name, value, first, same⟩
    · cases impossible
    · unfold refusal at same
      split at same <;> cases same
      exact first

end SearchSpace.Puzzle
