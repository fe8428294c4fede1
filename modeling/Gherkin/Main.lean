import Gherkin.Command.Run

/-!
# The Program

The command line on real files. Which inputs to read, what to write and what
to report is decided by `Gherkin.Command`; here it is done.
-/

namespace Gherkin

namespace Program

/-- An error of the operating system by its number, which may arrive with its
    sign turned. -/
def systemError (code : UInt32) (words : String) : Command.FileError :=
  let number := if code < 0x80000000 then code else 0 - code
  if number = 2 then .notFound
  else if number = 20 then .notDirectory
  else if number = 21 then .isDirectory
  else if number = 36 then .nameTooLong
  else .system (String.join [words, " (os error ", toString number, ")"])

/-- An error of the operating system. -/
def fileError : IO.Error → Command.FileError
  | .noFileOrDirectory _ code words => systemError code words
  | .inappropriateType _ code words => systemError code words
  | .permissionDenied _ code words => systemError code words
  | .resourceExhausted _ code words => systemError code words
  | .invalidArgument _ code words => systemError code words
  | .noSuchThing _ code words => systemError code words
  | .otherError code words => systemError code words
  | error => .system (toString error)

/-- All bytes of a stream, after those already read. -/
partial def readAll (stream : IO.FS.Stream) (before : ByteArray) : IO ByteArray := do
  let bytes ← stream.read 65536
  if bytes.isEmpty then return before
  readAll stream (before ++ bytes)

/-- Read an input. -/
def readInput (input : Command.Endpoint) : IO (Except Command.FileError String) := do
  try
    let bytes ← match input with
      | none => readAll (← IO.getStdin) ByteArray.empty
      | some path => IO.FS.readBinFile path
    return Command.decode bytes
  catch error => return .error (fileError error)

/-- Write what a command has produced. -/
def writeProduct (product : Command.Product) : IO (Option Command.Failure) := do
  try
    match product.output with
    | none => (← IO.getStdout).putStr product.text
    | some path => IO.FS.writeFile path product.text
    return none
  catch error => return some (.unwritable product.output (fileError error))

/-- Report a failure. -/
def reportFailure (failure : Command.Failure) : IO UInt32 := do
  (← IO.getStderr).putStr (Command.report failure.chain)
  return 1

/-- Run a command on real files. -/
def runOnFiles (command : Command) (settings : Command.Settings) : IO UInt32 := do
  let mut texts := []
  for input in command.inputs do
    texts := (input, ← readInput input) :: texts
  let found := texts
  let read : Command.Read := fun input => (found.lookup input).getD (.error .notFound)
  let terminal ← (← IO.getStdout).isTty
  match command.product read settings terminal with
  | .error failure => reportFailure failure
  | .ok product =>
    match ← writeProduct product with
    | some failure => reportFailure failure
    | none => return (if product.valid then 0 else 1)

/-- A reminder of how the program is called. -/
def usage : String :=
  "usage: [--log-level LEVEL] fmt|events|dom|check [OPTIONS] [PATHS]\n"

/-- Run the program on its words. -/
def start (words : List String) : IO UInt32 := do
  let mut values := []
  for name in Command.Settings.variableNames do
    if let some value ← IO.getEnv name then
      values := (name, value) :: values
  let env := values
  match Command.prepare words (fun name => env.lookup name) with
  | .error setback =>
    match setback.report? with
    | some report => (← IO.getStderr).putStr report
    | none => (← if setback.exitCode = 0 then IO.getStdout else IO.getStderr).putStr usage
    return UInt32.ofNat setback.exitCode
  | .ok (command, settings) => runOnFiles command settings

end Program

end Gherkin

/-- The program: its arguments are the words behind its name. -/
def main (words : List String) : IO UInt32 :=
  Gherkin.Program.start words
