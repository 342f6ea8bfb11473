import SearchSpace.Solver
import SearchSpace.Text.Plain

/-!
# Arguments of the command line

The program is asked to solve a puzzle, or to say something about itself. The value of an option is
looked at only when the next argument has been recognised or the arguments end, so an argument that
is not recognised is reported in preference to a wrong value in front of it. A value attached by an
equals sign is looked at immediately.
-/

namespace SearchSpace.CommandLine

/-- Where the description of the puzzle comes from. -/
inductive Source where
  | stdin
  | file (path : String)
deriving DecidableEq, Repr

/-- How a puzzle is to be solved. -/
structure Options where
  /-- Where the description of the puzzle comes from. -/
  source : Option Source := none
  /-- The strategy and its limits. -/
  solver : Solver := { strategy := .bfs }
deriving DecidableEq, Repr

/-- What the program can describe. -/
inductive Topic where
  | program
  | solve
deriving DecidableEq, Repr

/-- What the program is asked for. -/
inductive Request where
  /-- The solution of a puzzle. -/
  | solve (options : Options)
  | help (topic : Topic)
  | version
deriving DecidableEq, Repr

/-- What takes a value. -/
inductive Parameter where
  | file
  | strategy
  | maxDepth
  | maxExpansions
deriving DecidableEq, Repr

/-- How a parameter is written. -/
def Parameter.usage : Parameter → String
  | .file => "[FILE]"
  | .strategy => "--strategy <STRATEGY>"
  | .maxDepth => "--max-depth <MAX_DEPTH>"
  | .maxExpansions => "--max-expansions <MAX_EXPANSIONS>"

/-- What can be wrong with the text of a natural number below `2 ^ 64`. -/
inductive NumberFlaw where
  | empty
  | invalidDigit
  | tooLarge
deriving DecidableEq, Repr

/-- The flaw in words. -/
def NumberFlaw.phrase : NumberFlaw → String
  | .empty => "cannot parse integer from empty string"
  | .invalidDigit => "invalid digit found in string"
  | .tooLarge => "number too large to fit in target type"

/-- The reasons for which arguments are refused. -/
inductive UsageError where
  | nothingAsked
  /-- The argument is not recognised, or one too many. -/
  | unexpectedArgument (argument : String)
  /-- A flag has a value attached. -/
  | unexpectedValue (value flag : String)
  | missingValue (parameter : Parameter)
  /-- The value is none of those to choose from. -/
  | invalidChoice (value : String) (parameter : Parameter)
  | invalidNumber (value : String) (parameter : Parameter) (flaw : NumberFlaw)
  /-- A flag or a parameter is given twice. -/
  | repeated (argument : String)
  | unknownCommand (name : String)
deriving DecidableEq, Repr

/-- An argument between quotes, without what it could do to a terminal. -/
def quoted (argument : String) : String := "'" ++ Text.plain argument ++ "'"

/-- The reason in words. -/
def UsageError.message : UsageError → String
  | .nothingAsked => "a command is required"
  | .unexpectedArgument argument => "unexpected argument " ++ quoted argument ++ " found"
  | .unexpectedValue value flag =>
    "unexpected value " ++ quoted value ++ " for " ++ quoted flag
      ++ " found; no more were expected"
  | .missingValue parameter =>
    "a value is required for " ++ quoted parameter.usage ++ " but none was supplied"
  | .invalidChoice value parameter =>
    "invalid value " ++ quoted value ++ " for " ++ quoted parameter.usage
  | .invalidNumber value parameter flaw =>
    "invalid value " ++ quoted value ++ " for " ++ quoted parameter.usage ++ ": " ++ flaw.phrase
  | .repeated argument =>
    "the argument " ++ quoted argument ++ " cannot be used multiple times"
  | .unknownCommand name => "unrecognized subcommand " ++ quoted name

/-- Goes on reading a number below `2 ^ 64`. The first character that is wrong, or makes the number
too large, decides. -/
def naturalOfDigits (value : Nat) : List Char → Except NumberFlaw Nat
  | [] => .ok value
  | c :: rest =>
    if !c.isDigit then .error .invalidDigit
    else
      let value := value * 10 + (c.toNat - '0'.toNat)
      if value < UInt64.size then naturalOfDigits value rest else .error .tooLarge

/-- Reads a number below `2 ^ 64`, which may have a plus sign. -/
def natural (text : String) : Except NumberFlaw Nat :=
  match text.toList with
  | [] => .error .empty
  | ['+'] => .error .invalidDigit
  | '+' :: digits => naturalOfDigits 0 digits
  | digits => naturalOfDigits 0 digits

/-- What the arguments have given so far. -/
structure Given where
  file : Option String := none
  /-- Whether standard input is to be read. -/
  stdin : Bool := false
  strategy : Option Strategy := none
  maxDepth : Option UInt64 := none
  maxExpansions : Option UInt64 := none

/-- The options that result. Standard input is preferred to a file, and what is not given has its
default. -/
def Given.options (given : Given) : Options where
  source := if given.stdin then some .stdin else given.file.map .file
  solver := {
    strategy := given.strategy.getD .bfs
    limits := {
      maxDepth := given.maxDepth.getD ({} : Limits).maxDepth
      maxExpansions := given.maxExpansions } }

/-- Whether the parameter has a value. -/
def Given.has (given : Given) : Parameter → Bool
  | .file => given.file.isSome
  | .strategy => given.strategy.isSome
  | .maxDepth => given.maxDepth.isSome
  | .maxExpansions => given.maxExpansions.isSome

/-- Reads the value of a parameter that is a number. -/
def number (parameter : Parameter) (value : String) : Except UsageError UInt64 :=
  match natural value with
  | .ok value => .ok (UInt64.ofNat value)
  | .error flaw => .error (.invalidNumber value parameter flaw)

/-- Gives a parameter its value, which it must not have already. -/
def Given.set (given : Given) (parameter : Parameter) (value : String) :
    Except UsageError Given :=
  if given.has parameter then .error (.repeated parameter.usage)
  else
    match parameter with
    | .file =>
      if value = "" then .error (.missingValue .file) else .ok { given with file := some value }
    | .strategy =>
      match value with
      | "dfs" => .ok { given with strategy := some .dfs }
      | "bfs" => .ok { given with strategy := some .bfs }
      | "" => .error (.missingValue .strategy)
      | _ => .error (.invalidChoice value .strategy)
    | .maxDepth => do return { given with maxDepth := some (← number .maxDepth value) }
    | .maxExpansions => do
      return { given with maxExpansions := some (← number .maxExpansions value) }

/-- The parameter whose value has not been looked at yet. -/
inductive Pending where
  | nothing
  /-- The value is still to come. -/
  | awaiting (parameter : Parameter)
  /-- The value is there. -/
  | holding (parameter : Parameter) (value : String)

/-- Looks at the pending value. -/
def Pending.settle (given : Given) : Pending → Except UsageError Given
  | .nothing => .ok given
  | .awaiting parameter => .error (.missingValue parameter)
  | .holding parameter value => given.set parameter value

/-- The forms of an argument. -/
inductive Shape where
  /-- The end of the options. -/
  | dashes
  /-- A long option with the value attached to it, if there is one. -/
  | long (name : String) (value : Option String)
  /-- A group of short options, of which the first decides. -/
  | short (first : Char)
  /-- Anything else. -/
  | plain

/-- The form of an argument. -/
def shape (argument : String) : Shape :=
  match argument.toList with
  | ['-', '-'] => .dashes
  | '-' :: '-' :: rest =>
    let name := String.ofList (rest.takeWhile (· != '='))
    match rest.dropWhile (· != '=') with
    | _ :: value => .long name (some (String.ofList value))
    | [] => .long name none
  | '-' :: first :: _ => .short first
  | _ => .plain

/-- The parameter with the given long name. -/
def longParameter? : String → Option Parameter
  | "strategy" => some .strategy
  | "max-depth" => some .maxDepth
  | "max-expansions" => some .maxExpansions
  | _ => none

/-- Takes an argument as the path of the file, of which there may be one. -/
def takeFile (given : Given) (pending : Pending) (argument : String) :
    Except UsageError (Given × Pending) :=
  match given.file, pending with
  | some _, _ | _, .holding .file _ => .error (.unexpectedArgument argument)
  | _, _ => do return (← pending.settle given, .holding .file argument)

/-- Reads the arguments of the command that solves a puzzle. After two dashes the rest are no
options. -/
def parseSolve (given : Given) (pending : Pending) (dashed : Bool) :
    List String → Except UsageError Request
  | [] => do return .solve (← pending.settle given).options
  | argument :: rest => do
    if dashed then
      let (given, pending) ← takeFile given pending argument
      parseSolve given pending true rest
    else
      match shape argument with
      | .dashes => parseSolve given pending true rest
      | .short first =>
        if first = 'h' then
          let _ ← pending.settle given
          return .help .solve
        else .error (.unexpectedArgument ("-" ++ first.toString))
      | .long "help" none =>
        let _ ← pending.settle given
        return .help .solve
      | .long "stdin" none =>
        let given ← pending.settle given
        if given.stdin then .error (.repeated "--stdin")
        else parseSolve { given with stdin := true } .nothing false rest
      | .long name value =>
        match longParameter? name, value with
        | some parameter, none =>
          parseSolve (← pending.settle given) (.awaiting parameter) false rest
        | some parameter, some value =>
          let given ← pending.settle given
          parseSolve (← given.set parameter value) .nothing false rest
        | none, value =>
          match name, value with
          | "help", some value | "stdin", some value =>
            .error (.unexpectedValue value ("--" ++ name))
          | _, _ => .error (.unexpectedArgument ("--" ++ name))
      | .plain =>
        match pending with
        | .awaiting parameter => parseSolve given (.holding parameter argument) false rest
        | pending =>
          let (given, pending) ← takeFile given pending argument
          parseSolve given pending false rest

/-- Reads the arguments that name a topic. -/
def parseTopic : List String → Except UsageError Request
  | [] | ["help"] => .ok (.help .program)
  | ["solve"] => .ok (.help .solve)
  | "help" :: name :: _ | "solve" :: name :: _ | name :: _ => .error (.unknownCommand name)

/-- Reads the arguments of the program. The first decides on the command. -/
def parse : List String → Except UsageError Request
  | [] | ["--"] => .error .nothingAsked
  | "solve" :: rest => parseSolve {} .nothing false rest
  | "help" :: rest => parseTopic rest
  | argument :: rest =>
    match shape argument, rest with
    | .dashes, name :: _ =>
      if name = "solve" || name = "help" then .error (.unexpectedArgument name)
      else .error (.unknownCommand name)
    | .short 'h', _ | .long "help" none, _ => .ok (.help .program)
    | .short 'V', _ | .long "version" none, _ => .ok .version
    | .short first, _ => .error (.unexpectedArgument ("-" ++ first.toString))
    | .long name (some value), _ =>
      if name = "help" || name = "version" then
        .error (.unexpectedValue value ("--" ++ name))
      else .error (.unexpectedArgument ("--" ++ name))
    | .long name none, _ => .error (.unexpectedArgument ("--" ++ name))
    | _, _ => .error (.unknownCommand argument)

end SearchSpace.CommandLine
