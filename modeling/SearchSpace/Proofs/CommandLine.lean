import SearchSpace.CommandLine.Session
import SearchSpace.Proofs.Json.Accepted
import SearchSpace.Proofs.Json.Written
import SearchSpace.Proofs.Puzzle.Described
import SearchSpace.Proofs.Puzzle.Solved

/-!
# What the status and the report mean

A search always ends within the rounds that it is given, so what is printed is the outcome of a
search. Its path is empty only if no digits solve the puzzle. The status tells which of three things
happened, and the report of a solution holds the digits that solve what the document describes.
-/

namespace SearchSpace

namespace Puzzle

variable {puzzle : Puzzle} {solver : Solver} {rounds : Nat} {report : Report Puzzle}

/-- The rounds that a puzzle is given decide every search. -/
theorem exists_outcome (wellFormed : puzzle.WellFormed) (solver : Solver) :
    ∃ outcome, solver.run space puzzle.rounds ∅ puzzle = some outcome := by
  obtain ⟨strategy, limits⟩ := solver
  cases strategy with
  | dfs => exact ⟨_, rfl⟩
  | bfs =>
    have enough : 10 ^ puzzle.openVariables.length < puzzle.rounds := by
      rw [rounds, Nat.pow_eq]
      omega
    exact BreadthFirst.exists_outcome region_closed length_le_of_nodup (mem_region wellFormed)
      enough

/-- A path leads from the puzzle to a state that is solved, and closes a variable at each step. -/
theorem exists_last_of_search (wellFormed : puzzle.WellFormed)
    (answered : solver.search space rounds puzzle = some (.ok report))
    (solved : report.isSolved = true) :
    ∃ last, report.path.last? = some last ∧ report.path.first? = some puzzle ∧
      report.path.length = puzzle.openVariables.length + 1 ∧
      puzzle.Extends last ∧ last.WellFormed ∧ last.isSolved = true := by
  obtain ⟨outcome, ran, reported⟩ := exists_outcome_of_search answered
  rcases Outcome.verdict_of_report reported with found | ⟨-, empty⟩
  · obtain ⟨positions, solution, -⟩ := first_of_found wellFormed ran found
    obtain ⟨last, atEnd, goal⟩ := solution.goal
    have inside := solution.walk.mem_region region_closed (mem_region wellFormed) last
      (List.mem_of_getLast? atEnd)
    have long := length_positions_of_solution wellFormed solution
    have length_eq := solution.walk.length_states
    refine ⟨last, atEnd, solution.walk.head?_states, ?_, inside.1, inside.2, goal⟩
    unfold Path.length
    rw [length_eq, long]
  · unfold Report.isSolved at solved
    rw [empty] at solved
    cases solved

/-- Without a path no digits solve the puzzle. -/
theorem not_completion_of_search (wellFormed : puzzle.WellFormed)
    (answered : solver.search space rounds puzzle = some (.ok report))
    (unsolved : report.isSolved = false) (values : String → UInt8) :
    report.path = .empty ∧
      ¬(puzzle.Completion values ∧ puzzle.valueUnder values = puzzle.target) := by
  obtain ⟨outcome, ran, reported⟩ := exists_outcome_of_search answered
  rcases Outcome.verdict_of_report reported with found | ⟨exhausted, empty⟩
  · obtain ⟨positions, solution, -⟩ := first_of_found wellFormed ran found
    unfold Report.isSolved Path.isEmpty at unsolved
    have nonempty := solution.walk.states_ne_nil
    simp only [Bool.not_eq_false', List.isEmpty_iff] at unsolved
    exact absurd unsolved nonempty
  · refine ⟨empty, ?_⟩
    rintro ⟨completion, reached⟩
    have solved := completion.solvedBy wellFormed reached
    exact not_solvedBy_of_exhausted wellFormed ran exhausted solved

end Puzzle

namespace Json.Value

/-- The value of a field of an object. -/
def field? (name : String) : Value → Option Value
  | .object entries => entries.lookup name
  | _ => none

/-- The names and the values of the fields of an object. -/
def entries : Value → List (String × Value)
  | .object entries => entries
  | _ => []

/-- Where each name comes once, a field has the value that stands beside its name. -/
theorem field?_eq_some_iff {object found : Value} {name : String}
    (distinct : (object.entries.map (·.1)).Nodup) :
    object.field? name = some found ↔ (name, found) ∈ object.entries := by
  cases object with
  | object listed => exact Assignment.lookup_eq_some_iff distinct
  | _ => simp [field?, entries]

end Json.Value

namespace CommandLine

open Json (Value)

variable {solver : Solver} {report other : Report Puzzle} {milliseconds : Nat}

/-! ## Reports -/

/-- The fields of a report are its entries: no name comes twice. -/
theorem field?_reportJson {name : String} {value : Value} :
    (reportJson solver report milliseconds).field? name = some value ↔
      (name, value) ∈ (reportJson solver report milliseconds).entries := by
  apply Value.field?_eq_some_iff
  cases last : report.path.last? <;> simp [reportJson, Value.entries, last]

/-- The text of a report tells whether there is a solution. -/
theorem isSolved_eq_of_pretty_eq
    (same : (reportJson solver report milliseconds).pretty =
      (reportJson solver other milliseconds).pretty) : report.isSolved = other.isSolved := by
  obtain ⟨entries, eq⟩ : ∃ entries, reportJson solver report milliseconds =
      .object (("solved", .boolean report.isSolved) :: entries) := ⟨_, rfl⟩
  obtain ⟨entries', eq'⟩ : ∃ entries, reportJson solver other milliseconds =
      .object (("solved", .boolean other.isSolved) :: entries) := ⟨_, rfl⟩
  rw [eq, eq'] at same
  have texts := String.ofList_injective same
  simp only [Value.writeLines, Value.newLine, List.cons.injEq, List.append_cancel_left_eq,
    true_and] at texts
  have ⟨_, behind⟩ := Json.writeString_inj texts
  simp only [List.cons.injEq, true_and] at behind
  cases solved : report.isSolved <;> cases solved' : other.isSolved <;>
    simp [Value.writeBoolean, solved, solved'] at behind ⊢

/-! ## Answers -/

/-- The answer consists of the value on lines of its own. -/
def Response.Prints (response : Response) (value : Value) : Prop :=
  response.output = value.pretty ++ "\n"

theorem Response.not_prints_of_empty {response : Response} (empty : response.output = "")
    (value : Value) : ¬response.Prints value := by
  intro prints
  unfold Response.Prints at prints
  have lengths := congrArg String.length (empty.symm.trans prints)
  rw [String.length_append] at lengths
  have newLine : "\n".length = 1 := rfl
  have nothing : "".length = 0 := rfl
  omega

theorem Response.Prints.pretty_eq {response : Response} {value value' : Value}
    (prints : response.Prints value) (prints' : response.Prints value') :
    value.pretty = value'.pretty :=
  (String.append_left_inj "\n").1 (prints.symm.trans prints')

/-- No puzzle is loaded from the document, or a limit stops the search. -/
def Fails (solver : Solver) (document : String) : Prop :=
  (∃ reason, Puzzle.ofJson document = .error reason) ∨
    ∃ puzzle reason, Puzzle.ofJson document = .ok puzzle ∧
      solver.search Puzzle.space puzzle.rounds puzzle = some (.error reason)

/-- The report of a solution: the digits that solve the description, and a path to them from the
puzzle that has one state more than there are open variables. -/
structure ReportsSolution (description : Puzzle.Description) (puzzle : Puzzle)
    (solution : Assignment) (keys : List String) (value : Value) : Prop where
  solved : value.field? "solved" = some (.boolean true)
  assignment : value.field? "assignment" = some solution.toJson
  pathLength : value.field? "pathLength" = some (.number keys.length)
  path : value.field? "path" = some (.list (keys.map .text))
  length_eq : keys.length = puzzle.openVariables.length + 1
  first : keys.head? = some puzzle.text
  last : keys.getLast? = some { puzzle with assignment := solution }.text
  assigned : ∀ name ∈ description.tree.names, name ∈ solution.names
  solves : description.SolvedBy fun name => (solution.get? name).getD 0

/-- The report that there is no solution. -/
structure ReportsNone (value : Value) : Prop where
  solved : value.field? "solved" = some (.boolean false)
  assignment : value.field? "assignment" = none
  pathLength : value.field? "pathLength" = some (.number 0)
  path : value.field? "path" = some (.list [])

variable {options : Options} {document : String} {puzzle : Puzzle}
  {description : Puzzle.Description}

theorem search_eq (wellFormed : puzzle.WellFormed) (solver : Solver) :
    solver.search Puzzle.space puzzle.rounds puzzle = some (search solver puzzle) := by
  obtain ⟨outcome, ran⟩ := Puzzle.exists_outcome wellFormed solver
  have searched : solver.search Puzzle.space puzzle.rounds puzzle = some outcome.report := by
    unfold Solver.search
    rw [ran]
    rfl
  unfold search
  rw [searched]
  rfl

theorem reportsSolution_of_search (built : description.puzzle = .ok puzzle)
    (answered : solver.search Puzzle.space puzzle.rounds puzzle = some (.ok report))
    (solved : report.isSolved = true) (milliseconds : Nat) :
    ∃ solution keys,
      ReportsSolution description puzzle solution keys (reportJson solver report milliseconds) := by
  have wellFormed := Puzzle.Description.wellFormed_of_puzzle built
  obtain ⟨last, atEnd, atStart, length_eq, extended, wellFormed', goal⟩ :=
    Puzzle.exists_last_of_search wellFormed answered solved
  have same : { puzzle with assignment := last.assignment } = last := by
    rw [← extended.tree_eq, ← extended.target_eq]
  refine ⟨last.assignment, report.path.keys Puzzle.space, ?_⟩
  constructor
  case solved => exact field?_reportJson.2 (by simp [reportJson, Value.entries, solved])
  case assignment => exact field?_reportJson.2 (by simp [reportJson, Value.entries, atEnd])
  case pathLength =>
    exact field?_reportJson.2 (by simp [reportJson, Value.entries, Path.keys, Path.length])
  case path => exact field?_reportJson.2 (by simp [reportJson, Value.entries])
  case length_eq =>
    rw [← length_eq]
    exact List.length_map _
  case first =>
    unfold Path.first? at atStart
    simp [Path.keys, atStart, Puzzle.space]
  case last =>
    unfold Path.last? at atEnd
    rw [same]
    simp [Path.keys, atEnd, Puzzle.space]
  case assigned =>
    intro name member
    obtain ⟨-, tree_eq, -⟩ := Puzzle.eq_of_create built
    apply (wellFormed'.mem_names_iff name).2
    rw [extended.tree_eq, tree_eq]
    exact member
  case solves =>
    apply (Puzzle.Description.solvedBy_iff built).2
    exact Puzzle.completion_of_isSolved extended wellFormed' goal

theorem reportsNone_of_search (wellFormed : puzzle.WellFormed)
    (answered : solver.search Puzzle.space puzzle.rounds puzzle = some (.ok report))
    (unsolved : report.isSolved = false) (milliseconds : Nat) :
    ReportsNone (reportJson solver report milliseconds) := by
  have ⟨empty, _⟩ := Puzzle.not_completion_of_search wellFormed answered unsolved fun _ => 0
  constructor
  case solved => exact field?_reportJson.2 (by simp [reportJson, Value.entries, unsolved])
  case assignment =>
    refine Option.eq_none_iff_forall_ne_some.2 fun value found => ?_
    have listed := field?_reportJson.1 found
    simp [reportJson, Value.entries, empty, Path.last?, Path.empty] at listed
  case pathLength =>
    exact field?_reportJson.2 (by simp [reportJson, Value.entries, empty, Path.length, Path.empty])
  case path =>
    exact field?_reportJson.2 (by simp [reportJson, Value.entries, empty, Path.keys, Path.empty])

/-- The answer to a document that was read. -/
def answerTo (options : Options) (milliseconds : Nat) (document : String) : Response :=
  answer options milliseconds (attempt options (.ok document))

/-- Either nothing is printed because of an error, or the report of a search. -/
theorem answerTo_cases (options : Options) (milliseconds : Nat) (document : String) :
    (Fails options.solver document ∧ (answerTo options milliseconds document).status = failed ∧
      (answerTo options milliseconds document).output = "") ∨
    ¬Fails options.solver document ∧ ∃ description puzzle report,
      Puzzle.Description.ofJson document = .ok description ∧ description.puzzle = .ok puzzle ∧
      options.solver.search Puzzle.space puzzle.rounds puzzle = some (.ok report) ∧
      (answerTo options milliseconds document).Prints
        (reportJson options.solver report milliseconds) ∧
      (answerTo options milliseconds document).status =
        if report.isSolved then solved else unsolved := by
  cases loaded : Puzzle.ofJson document with
  | error reason =>
    have answered : answerTo options milliseconds document = refuse reason := by
      simp [answerTo, attempt, Except.bind, Except.map, loaded, answer]
    refine .inl ⟨.inl ⟨reason, loaded⟩, ?_, ?_⟩
    · rw [answered]
      rfl
    · rw [answered]
      rfl
  | ok puzzle =>
    have answered : answerTo options milliseconds document =
        respond options.solver milliseconds (search options.solver puzzle) := by
      simp [answerTo, attempt, Except.bind, Except.map, loaded, answer]
    obtain ⟨description, isRead, built⟩ := Puzzle.exists_description loaded
    have searched := search_eq (Puzzle.Description.wellFormed_of_puzzle built) options.solver
    rw [answered]
    cases result : search options.solver puzzle with
    | error reason =>
      rw [result] at searched
      exact .inl ⟨.inr ⟨puzzle, reason, loaded, searched⟩, rfl, rfl⟩
    | ok report =>
      rw [result] at searched
      refine .inr ⟨?_, description, puzzle, report, isRead, built, searched, rfl, rfl⟩
      rintro (⟨reason, refused⟩ | ⟨other, reason, loaded', stopped⟩)
      · rw [loaded] at refused
        cases refused
      · rw [loaded] at loaded'
        cases loaded'
        rw [searched] at stopped
        cases stopped

/-- The status is 2 exactly if no puzzle is loaded or a limit stops the search, and then nothing is
printed. It is 0 exactly if the report of a solution is printed, which then solves what the document
describes. It is 1 exactly if there is no error and no digits solve what the document describes, and
then the report says so. -/
theorem exit_status_correct (options : Options) (milliseconds : Nat) (document : String) :
    ((answerTo options milliseconds document).status = failed ↔
      Fails options.solver document) ∧
    ((answerTo options milliseconds document).status = failed →
      (answerTo options milliseconds document).output = "") ∧
    ((answerTo options milliseconds document).status = solved ↔
      ∃ report, (answerTo options milliseconds document).Prints
          (reportJson options.solver report milliseconds) ∧
        (reportJson options.solver report milliseconds).field? "solved" = some (.boolean true)) ∧
    ((answerTo options milliseconds document).status = solved →
      ∃ description puzzle solution keys value,
        Puzzle.Description.ofJson document = .ok description ∧ description.puzzle = .ok puzzle ∧
        (answerTo options milliseconds document).Prints value ∧
        ReportsSolution description puzzle solution keys value) ∧
    ((answerTo options milliseconds document).status = unsolved ↔
      ¬Fails options.solver document ∧ ∃ description,
        Puzzle.Description.ofJson document = .ok description ∧
        ¬∃ values, description.SolvedBy values) ∧
    ((answerTo options milliseconds document).status = unsolved →
      ∃ value, (answerTo options milliseconds document).Prints value ∧ ReportsNone value) := by
  have failed_ne : failed ≠ solved ∧ failed ≠ unsolved := by decide
  have solved_ne : solved ≠ failed ∧ solved ≠ unsolved := by decide
  have unsolved_ne : unsolved ≠ failed ∧ unsolved ≠ solved := by decide
  rcases answerTo_cases options milliseconds document with ⟨fails, status, output⟩ |
    ⟨succeeds, description, puzzle, report, isRead, built, searched, prints, status⟩
  · rw [status]
    have silent := Response.not_prints_of_empty output
    refine ⟨iff_of_true rfl fails, fun _ => output, iff_of_false failed_ne.1 ?_,
      fun other => absurd other failed_ne.1, iff_of_false failed_ne.2 ?_,
      fun other => absurd other failed_ne.2⟩
    · rintro ⟨report, prints, -⟩
      exact silent _ prints
    · rintro ⟨succeeds, -⟩
      exact succeeds fails
  cases found : report.isSolved with
  | true =>
    rw [found, if_pos rfl] at status
    rw [status]
    obtain ⟨solution, keys, reports⟩ := reportsSolution_of_search built searched found milliseconds
    refine ⟨iff_of_false solved_ne.1 succeeds, fun other => absurd other solved_ne.1,
      iff_of_true rfl ⟨report, prints, reports.solved⟩,
      fun _ => ⟨description, puzzle, solution, keys, _, isRead, built, prints, reports⟩,
      iff_of_false solved_ne.2 ?_, fun other => absurd other solved_ne.2⟩
    rintro ⟨-, description', isRead', unsolvable⟩
    rw [isRead] at isRead'
    cases isRead'
    exact unsolvable ⟨_, reports.solves⟩
  | false =>
    rw [found, if_neg Bool.false_ne_true] at status
    rw [status]
    have wellFormed := Puzzle.Description.wellFormed_of_puzzle built
    have reports := reportsNone_of_search wellFormed searched found milliseconds
    refine ⟨iff_of_false unsolved_ne.1 succeeds, fun other => absurd other unsolved_ne.1,
      iff_of_false unsolved_ne.2 ?_, fun other => absurd other unsolved_ne.2,
      iff_of_true rfl ⟨succeeds, description, isRead, ?_⟩, fun _ => ⟨_, prints, reports⟩⟩
    · rintro ⟨other, prints', solved⟩
      have same := isSolved_eq_of_pretty_eq (prints.pretty_eq prints')
      have said : (reportJson options.solver other milliseconds).field? "solved" =
          some (.boolean other.isSolved) :=
        field?_reportJson.2 (by simp [reportJson, Value.entries])
      rw [said, ← same, found] at solved
      cases solved
    · rintro ⟨values, solves⟩
      have completes := (Puzzle.Description.solvedBy_iff built).1 solves
      exact (Puzzle.not_completion_of_search wellFormed searched found values).2 completes

/-- A variable that is to be 5. -/
def lone : Puzzle.Description := { tree := .var "x", target := 5 }

/-- The same in a document. -/
def loneText : String := "\x7b\"tree\": \x7b\"var\": \"x\"\x7d, \"target\": 5\x7d"

/-- A breadth-first search without a budget solves the puzzle, and no text is one. -/
theorem exit_status_correct_lone :
    (answerTo {} 0 loneText).status = solved ∧
    (∃ description puzzle solution keys value,
      Puzzle.Description.ofJson loneText = .ok description ∧ description.puzzle = .ok puzzle ∧
      (answerTo {} 0 loneText).Prints value ∧
      ReportsSolution description puzzle solution keys value) ∧
    (answerTo {} 0 "").status = failed ∧ (answerTo {} 0 "").output = "" := by
  have ⟨failed_iff, silent, _⟩ := exit_status_correct {} 0 ""
  have ⟨_, _, _, reports, unsolved_iff, _⟩ := exit_status_correct {} 0 loneText
  have empty : Fails ({} : Options).solver "" := .inl ⟨.document .endInValue, rfl⟩
  have failure := failed_iff.2 empty
  have known : (Puzzle.Description.ofJson loneText).toOption = some lone := by decide +kernel
  have isRead := Json.eq_ok_of_toOption_eq_some known
  have solvable : lone.SolvedBy fun _ => 5 := by
    refine ⟨fun _ _ => by decide, fun name value held => ?_, rfl⟩
    cases held
  have status : (answerTo {} 0 loneText).status = solved := by
    rcases answerTo_cases {} 0 loneText with ⟨fails, -⟩ |
      ⟨succeeds, description, puzzle, report, -, -, -, -, status⟩
    · rcases fails with ⟨reason, refused⟩ | ⟨puzzle, reason, loaded, stopped⟩
      · unfold Puzzle.ofJson at refused
        rw [isRead] at refused
        cases refused
      · obtain ⟨description, -, built⟩ := Puzzle.exists_description loaded
        have wellFormed := Puzzle.Description.wellFormed_of_puzzle built
        obtain ⟨report, answered⟩ : ∃ report,
            ({} : Options).solver.search Puzzle.space puzzle.rounds puzzle = some (.ok report) :=
          Puzzle.exists_report_of_bfs wellFormed rfl rfl (Nat.le_refl _)
        cases stopped.symm.trans answered
    · cases found : report.isSolved with
      | true => rw [status, found, if_pos rfl]
      | false =>
        rw [found, if_neg Bool.false_ne_true] at status
        obtain ⟨-, description, isRead', unsolvable⟩ := unsolved_iff.1 status
        rw [isRead] at isRead'
        cases isRead'
        exact absurd ⟨_, solvable⟩ unsolvable
  exact ⟨status, reports status, failure, silent failure⟩

end CommandLine

end SearchSpace
