import Fieldbus.Cli.Run

/-!
# The program

The outer layer: files, devices and the terminal.  A capture is read as a whole and handed to
`Cli.run`; a device is listened to byte by byte, as they come.
-/

set_option autoImplicit false

namespace Fieldbus
namespace Program

/-- Is an error of the operating system the one with the given number?  It may come with its sign
changed. -/
def hasNumber (code number : UInt32) : Bool := code = number || code + number = 0

/-- A file error by the error of the operating system. -/
def fileError : IO.Error → Cli.FileError
  | .noFileOrDirectory .. => .notFound
  | .permissionDenied .. => .permissionDenied
  | .inappropriateType _ code _ => if hasNumber code 20 then .notADirectory else .isADirectory
  | error@(.invalidArgument _ code _) =>
    if hasNumber code 36 then .nameTooLong else .other (toString error)
  | error => .other (toString error)

/-- The content of a file. -/
def readFile (path : String) : IO (Except Cli.FileError Bytes) := do
  try
    let content ← IO.FS.readBinFile path
    return .ok content.toList
  catch error => return .error (fileError error)

/-- The files that a command reads as a whole. -/
def wholeFiles : Cli.Command → List String
  | .replay config (.file path) _ => [path, config]
  | .replay config (.hex _) _ => [config]
  | _ => []

/-- A failure is told on the standard error. -/
def fail (failure : Cli.Failure) : IO UInt32 := do
  IO.eprintln ("error: " ++ failure.message)
  return failure.code.number.toUInt32

/-- The lines of events are printed at once. -/
def printEvents (format : Cli.OutputFormat) (events : List Event) : IO Unit := do
  let output ← IO.getStdout
  for event in events do
    for line in Cli.EventReport.lines format event do
      output.putStrLn line
  output.flush

/-- The time by a clock that is never set back. -/
def now : IO Time := do
  return (← IO.monoNanosNow : Nat)

/-- A device is listened to until it ends or enough events have been told. -/
partial def listen (format : Cli.OutputFormat) (read : USize → IO ByteArray) (m : Monitor) :
    IO Unit := do
  let block ← read 1
  if block.isEmpty then
    printEvents format (m.close (← now))
  else
    let (events, next) := m.receive block.toList (← now)
    printEvents format events
    match next with
    | some m => listen format read m
    | none => return

/-- A device by its name; a hyphen stands for the standard input. -/
def openDevice (device : String) : IO (USize → IO ByteArray) := do
  if device = "-" then return (← IO.getStdin).read
  let handle ← IO.FS.Handle.mk device .read
  return handle.read

/-- A device is opened and listened to. -/
def monitor (format : Cli.OutputFormat) (config device : String) (count : Option Nat) :
    IO UInt32 := do
  match Cli.Command.openMonitor config (← readFile config) count with
  | .error failure => fail failure
  | .ok m =>
    try
      listen format (← openDevice device) m
      return 0
    catch error => fail (Cli.Command.deviceFailure device (fileError error))

/-- An outcome is printed. -/
def finish (outcome : Cli.Outcome) : IO UInt32 := do
  for line in outcome.lines do
    IO.println line
  match outcome.error with
  | some failure => fail failure
  | none =>
    if outcome.code = .misuse then
      for line in Cli.topGrammar.helpLines false do
        IO.eprintln line
    return outcome.code.number.toUInt32

/-- Any other command is carried out. -/
def perform (invocation : Cli.Invocation) : IO UInt32 := do
  let contents ← (wholeFiles invocation.command).mapM fun path => do
    return (path, ← readFile path)
  finish <| invocation.run
    { file := fun path => (contents.lookup path).getD (.error .notFound), standardInput := [] }

/-- A command line is answered: the exit code. -/
def answer (words : List String) : IO UInt32 := do
  match Cli.Invocation.ofWords words with
  | .error stop => finish stop.outcome
  | .ok invocation =>
    match invocation.command with
    | .monitor config device count =>
      monitor (invocation.format.getD .json) config device count
    | _ => perform invocation

end Program
end Fieldbus

/-- The program. -/
def main (words : List String) : IO UInt32 := Fieldbus.Program.answer words
