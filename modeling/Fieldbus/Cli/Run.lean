import Fieldbus.Bus.Replay
import Fieldbus.Checksum.Algorithm
import Fieldbus.Cli.Failure
import Fieldbus.Cli.Help
import Fieldbus.Cli.Report
import Fieldbus.Field.Encode

/-!
# Carrying out a command

`run` answers a command line with an `Outcome`: the lines printed, what went wrong, and the exit
code.  The files and the standard input are given to it, so that it is a function.

Of several things that are wrong the first one in this order is told: the capture, the size of its
pieces, the description, the channel, the entities, the device.
-/

set_option autoImplicit false

namespace Fieldbus
namespace Cli

/-- What a command can see of the world. -/
structure Surroundings where
  /-- What is in a file. -/
  file : String → Except FileError Bytes
  standardInput : Bytes

/-- How a command ends. -/
structure Outcome where
  code : ExitCode
  lines : List String := []
  error : Option Failure := none

/-- The version of the program. -/
def programVersion : String := "0.3.0"

/-- The name and the version of the program. -/
def versionLine : String := programName ++ " " ++ programVersion

namespace Command

/-! ## Computing bytes -/

/-- The bytes that the text of an argument spells. -/
def readHex (argument text : String) : Except Failure Bytes :=
  match Text.readBytes text with
  | .ok bytes => .ok bytes
  | .error cause => .error (.badHex argument cause)

/-- A checksum. -/
def runChecksum (algorithm header data : String) : Except Failure BytesReport :=
  match Algorithm.ofName? algorithm with
  | none => .error (.unknownAlgorithm algorithm)
  | some a => do
    let header ← readHex "header" header
    let data ← readHex "data" data
    return { kind := "checksum", name := a.name, bytes := a.compute header data }

/-- What is to be encoded: a number if the text spells one, else the text itself. -/
def readValue (text : String) : Value :=
  match Binary64.ofText? text with
  | some x => .number x
  | none => .text text

/-- An encoded value. -/
def runEncode (r : EncodeRequest) : Except Failure BytesReport :=
  match EncodingKind.names.lookup r.encoding with
  | none => .error (.unknownEncoding r.encoding)
  | some kind =>
    let schema : EncodingSchema :=
      { kind, length := r.length, signed := r.signed, order := r.order, factor := r.factor,
        offset := r.offset }
    match schema.validate with
    | .error cause => .error (.encoding cause)
    | .ok () =>
      match schema.encode (readValue r.value) with
      | [] => .error (.notEncodable r.value kind)
      | bytes => .ok { kind := "encode", name := kind.name, bytes }

/-! ## Listening -/

/-- The text that bytes spell in UTF-8, if they do. -/
def decodeText? (bytes : Bytes) : Option String := String.fromUTF8? (ByteArray.mk bytes.toArray)

/-- The description of a bus from the content of the file at a path. -/
def readConfig (path : String) (content : Except FileError Bytes) : Except Failure BusConfig :=
  match content with
  | .error cause => .error (.file (Failure.configAttempt path) cause)
  | .ok bytes =>
    match decodeText? bytes with
    | none => .error (.configNotText path)
    | some text => match BusConfig.ofText? text with
      | some config => .ok config
      | none => .error (.badConfig path)

/-- The dispatcher of a bus. -/
def setUp (config : BusConfig) : Except Failure Dispatcher :=
  match config.setUp with
  | .ok d => .ok d
  | .error cause => .error (.bus cause)

/-- A captured stream of bytes. -/
def readCapture (file : String → Except FileError Bytes) : CaptureSource → Except Failure Bytes
  | .hex text => readHex "--hex" text
  | .file path => match file path with
    | .ok bytes => .ok bytes
    | .error cause => .error (.file ("read capture " ++ path) cause)

/-- The pieces of a capture, all of it in one if no size is given. -/
def readPieces (capture : Bytes) : Option Nat → Except Failure (List Bytes)
  | some 0 => .error .noChunk
  | some size => .ok (cut size capture)
  | none => .ok (cut capture.length capture)

/-- The events of a capture. -/
def runReplay (file : String → Except FileError Bytes) (config : String) (source : CaptureSource)
    (chunk : Option Nat) : Except Failure (List Event) := do
  let capture ← readCapture file source
  let pieces ← readPieces capture chunk
  let config ← readConfig config (file config)
  let d ← setUp config
  return (d.replay config.id (Piece.ofList pieces)).events

/-- A listener on the bus described by the content of the file at a path. -/
def openMonitor (path : String) (content : Except FileError Bytes) (count : Option Nat) :
    Except Failure Monitor := do
  let config ← readConfig path content
  let d ← setUp config
  return { dispatcher := d, channel := config.id, limit := count }

/-- A directory can be opened like a device, but not read. -/
def deviceFailure (device : String) : FileError → Failure
  | .isADirectory => .file "read" .isADirectory
  | cause => .file ("open " ++ device) cause

/-- The bytes that a device delivers; a hyphen stands for the standard input. -/
def readDevice (s : Surroundings) (device : String) : Except Failure Bytes :=
  if device = "-" then .ok s.standardInput
  else match s.file device with
    | .ok bytes => .ok bytes
    | .error cause => .error (deviceFailure device cause)

/-- How many bytes are read from a device at once. -/
def blockSize : Nat := 256

/-- The events told while listening. -/
def runMonitor (s : Surroundings) (config device : String) (count : Option Nat) :
    Except Failure (List Event) := do
  let m ← openMonitor config (s.file config) count
  let received ← readDevice s device
  return m.listen 0 (cut blockSize received)

/-! ## All commands -/

/-- The lines that tell the version, and on request what the program was built for and with. -/
def versionLines (extended : Bool) : List String :=
  if extended then
    ["name: " ++ programName, "version: " ++ programVersion, "target: x86_64-unknown-linux-gnu",
      "target_os: linux", "target_arch: x86_64", "git_hash: unknown",
      "features: dispatch=true, async=false, cli=true"]
  else [versionLine]

/-- The lines that a command prints, or why it fails. -/
def run (s : Surroundings) (format : OutputFormat) : Command → Except Failure (List String)
  | .replay config source chunk =>
    (runReplay s.file config source chunk).map (·.flatMap (EventReport.lines format))
  | .monitor config device count =>
    (runMonitor s config device count).map (·.flatMap (EventReport.lines format))
  | .checksum algorithm header data =>
    (runChecksum algorithm header data).map (BytesReport.lines format)
  | .encode request => (runEncode request).map (BytesReport.lines format)
  | .version extended => .ok (versionLines extended)

end Command

/-- How a scan of the command line that was stopped ends. -/
def Stop.outcome : Stop → Outcome
  | .misuse => { code := .misuse }
  | .help g full => { code := .success, lines := g.helpLines full }
  | .version => { code := .success, lines := [versionLine] }

/-- How an invocation ends; documents are printed unless another format was asked for. -/
def Invocation.run (s : Surroundings) (i : Invocation) : Outcome :=
  match i.command.run s (i.format.getD .json) with
  | .ok lines => { code := .success, lines }
  | .error failure => { code := failure.code, error := some failure }

/-- How a command line is answered. -/
def run (s : Surroundings) (words : List String) : Outcome :=
  match Invocation.ofWords words with
  | .error stop => stop.outcome
  | .ok invocation => invocation.run s

end Cli
end Fieldbus
