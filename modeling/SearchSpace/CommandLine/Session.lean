import SearchSpace.CommandLine.Arguments
import SearchSpace.Document.Limits
import SearchSpace.Document.Puzzle

/-!
# A session at the command line

What the program answers to its arguments: an exit status and what it writes. The status is 0 if a
solution was found, 1 if there is none, and 2 if no puzzle could be loaded or a limit stopped the
search.
-/

namespace SearchSpace.CommandLine

/-- What the program leaves behind. -/
structure Response where
  status : UInt8
  output : String := ""
  errors : String := ""
deriving DecidableEq, Repr

/-- The status after a solution was found. -/
def solved : UInt8 := 0

/-- The status if there is no solution. -/
def unsolved : UInt8 := 1

/-- The status after an error. -/
def failed : UInt8 := 2

/-- The report of a search that was not stopped. The assignment is that of the last state of the
path and left out if there is none. -/
def reportJson (solver : Solver) (report : Report Puzzle) (milliseconds : Nat) : Json.Value :=
  let assignment :=
    match report.path.last? with
    | some puzzle => [("assignment", puzzle.assignment.toJson)]
    | none => []
  .object ([
    ("solved", .boolean report.isSolved),
    ("strategy", solver.strategy.toJson),
    ("limits", solver.limits.toJson),
    ("pathLength", .number report.path.length),
    ("path", .list ((report.path.keys Puzzle.space).map .text))] ++ assignment ++ [
    ("expansions", .number report.stats.expansions),
    ("pruned", .number report.stats.pruned),
    ("timeElapsedMs", .number milliseconds)])

/-- The answer to a search. -/
def respond (solver : Solver) (milliseconds : Nat) :
    Except LimitExceeded (Report Puzzle) → Response
  | .ok report => {
      status := if report.isSolved then solved else unsolved
      output := (reportJson solver report milliseconds).pretty ++ "\n" }
  | .error reason => { status := failed, errors := "Search aborted: " ++ reason.message ++ "\n" }

/-- The answer if no puzzle could be loaded. -/
def refuse (reason : LoadError) : Response :=
  { status := failed, errors := "Error loading puzzle: " ++ reason.message ++ "\n" }

/-- The answer to arguments that are refused. -/
def complain : UsageError → String → Response
  | .nothingAsked, help => { status := failed, errors := help }
  | reason, _ => {
      status := failed
      errors := "error: " ++ reason.message ++ "\n\nFor more information, try '--help'.\n" }

/-- The search of the solver. The rounds decide every puzzle, so there always is a result. -/
def search (solver : Solver) (puzzle : Puzzle) : Except LimitExceeded (Report Puzzle) :=
  (solver.search Puzzle.space puzzle.rounds puzzle).getD (.ok { path := ∅, stats := {} })

/-- Lines of text, each with its end. -/
def lines (texts : List String) : String := String.join (texts.map (· ++ "\n"))

/-- The description of a topic. -/
def help : Topic → String
  | .program => lines [
      "Depth-first and breadth-first puzzle solver",
      "",
      "Usage: state-search <COMMAND>",
      "",
      "Commands:",
      "  solve  Solve an expression-tree puzzle",
      "  help   Print this message or the help of the given subcommand(s)",
      "",
      "Options:",
      "  -h, --help     Print help",
      "  -V, --version  Print version"]
  | .solve => lines [
      "Solve an expression-tree puzzle",
      "",
      "Usage: state-search solve [OPTIONS] [FILE]",
      "",
      "Arguments:",
      "  [FILE]  Path to puzzle JSON file (use --stdin to read from stdin)",
      "",
      "Options:",
      "      --stdin                            Read puzzle from stdin instead of file",
      "      --strategy <STRATEGY>              Search strategy [default: bfs] "
        ++ "[possible values: dfs, bfs]",
      "      --max-depth <MAX_DEPTH>            Maximum depth-first recursion depth "
        ++ "[default: 1024]",
      "      --max-expansions <MAX_EXPANSIONS>  Maximum number of state expansions",
      "  -h, --help                             Print help"]

/-- The name and the version of the program. -/
def version : String := "state-search 0.1.0\n"

/-- The document with the given bytes, which have to be UTF-8. -/
def decode (bytes : ByteArray) : Except LoadError String :=
  match String.fromUTF8? bytes with
  | some text => .ok text
  | none => .error (.unreadable .notText)

/-- The outcome of a run. -/
abbrev Attempt := Except LoadError (Except LimitExceeded (Report Puzzle))

/-- Loads the puzzle, given its document or the reason why there is none, and searches. -/
def attempt (options : Options) (document : Except LoadError String) : Attempt :=
  (document.bind Puzzle.ofJson).map (search options.solver)

/-- The answer to a run that took the given time. -/
def answer (options : Options) (milliseconds : Nat) : Attempt → Response
  | .error reason => refuse reason
  | .ok result => respond options.solver milliseconds result

end SearchSpace.CommandLine
