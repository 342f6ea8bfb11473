import SearchSpace.CommandLine.Session

/-!
# The program

Reads the arguments, the document and the clock, and writes the answer.
-/

namespace SearchSpace.CommandLine

/-- The number that the system gives to an error, which it may pass on with the sign changed. -/
def errorNumber (code : UInt32) : UInt32 := if code < 0x80000000 then code else 0 - code

/-- The reason why a file could not be read. -/
def unreadable (reason : IO.Error) : LoadError :=
  .unreadable <|
    match reason with
    | .noFileOrDirectory .. => .noSuchFile
    | .permissionDenied .. => .permissionDenied
    | .inappropriateType _ code _ => if errorNumber code = 20 then .notDirectory else .isDirectory
    | .invalidArgument _ code _ =>
      if errorNumber code = 36 then .nameTooLong else .other reason.toString
    | _ => .other reason.toString

/-- Reads a document from where it is. -/
def readSource : Option Source → IO (Except LoadError String)
  | none => return .error .noSource
  | some .stdin => do
    try return decode (← (← IO.getStdin).readBinToEnd)
    catch reason => return .error (unreadable reason)
  | some (.file path) => do
    try return decode (← IO.FS.readBinFile path)
    catch reason => return .error (unreadable reason)

/-- Carries out a request. -/
def serve : Request → IO Response
  | .help topic => return { status := solved, output := help topic }
  | .version => return { status := solved, output := version }
  | .solve options => do
    let document ← readSource options.source
    let started ← IO.monoMsNow
    let result ← IO.lazyPure fun _ => attempt options document
    let ended ← IO.monoMsNow
    return answer options (ended - started) result

end SearchSpace.CommandLine

open SearchSpace.CommandLine in
/-- Runs the program. -/
def main (arguments : List String) : IO UInt32 := do
  let response ←
    match parse arguments with
    | .error reason => pure (complain reason (help .program))
    | .ok request => serve request
  IO.print response.output
  IO.eprint response.errors
  return response.status.toUInt32
