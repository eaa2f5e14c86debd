import Fieldbus.Cli.Arguments
import Fieldbus.Field.Schema

/-!
# Commands

`Invocation.ofWords` reads a command line: options for all commands, the name of a command, and its
own options and operands, among which the options for all commands may stand again; the later one
counts then.

| command    | operands         | options                                                     |
| ---------- | ---------------- | ----------------------------------------------------------- |
| `replay`   | CONFIG           | `--hex` or `--file`, `--chunk`                              |
| `monitor`  | CONFIG, DEVICE   | `--count`                                                   |
| `checksum` |                  | `--algorithm`, `--data`, `--header`                         |
| `encode`   |                  | `--value`, `--encode`, `--length`, `--signed`,              |
|            |                  | `--little-endian`, `--factor`, `--offset`                   |
| `version`  |                  | `--extended`                                                |
-/

set_option autoImplicit false

namespace Fieldbus
namespace Cli

/-! ## What can be asked for -/

/-- How results are written. -/
inductive OutputFormat where
  | json
  | table
  | pretty
deriving DecidableEq, Repr

/-- The names of the formats. -/
def OutputFormat.names : List (String × OutputFormat) :=
  [("json", .json), ("table", .table), ("pretty", .pretty)]

/-- Where a capture is found. -/
inductive CaptureSource where
  | hex (text : String)
  | file (path : String)
deriving DecidableEq, Repr

/-- A value to be encoded, and how. -/
structure EncodeRequest where
  value : String
  encoding : String
  length : Nat
  signed : Bool
  order : ByteOrder
  factor : Option Binary64
  offset : Option Binary64
deriving DecidableEq, Repr

/-- A command. -/
inductive Command where
  | replay (config : String) (source : CaptureSource) (chunk : Option Nat)
  | monitor (config device : String) (count : Option Nat)
  | checksum (algorithm header data : String)
  | encode (request : EncodeRequest)
  | version (extended : Bool)
deriving DecidableEq, Repr

/-- A command, and how its result is written if that was said. -/
structure Invocation where
  format : Option OutputFormat
  command : Command
deriving DecidableEq, Repr

/-! ## The grammars -/

/-- The name of the program. -/
def programName : String := "homebus"

/-- An option with a value. -/
def OptionSpec.valued (name valueName summary : String) (kind : ValueKind) : OptionSpec where
  name
  kind := .value kind false
  valueName
  summary

/-- The options for all commands.  Two of them are about diagnostics, of which this program writes
none. -/
def commonOptions : List OptionSpec :=
  [.valued "format" "FORMAT" "Output format"
      (.choice (OutputFormat.names.map fun (name, _) => { name })),
    { OptionSpec.valued "log-format" "FORMAT" "Log output format (stderr)"
        (.choice [{ name := "text" }, { name := "json" }]) with default := some "text" },
    { OptionSpec.valued "log-level" "LEVEL" "Minimum log level (stderr)"
        (.choice
          [{ name := "off", summary := "No diagnostics; only bus events on stdout" },
            { name := "error" },
            { name := "warn", summary := "Worker fallbacks and dropped commands" },
            { name := "info" },
            { name := "debug", summary := "Discarded bytes, rejected candidates, ACK timeouts" },
            { name := "trace", summary := "Every extracted and unmatched frame" }])
      with default := some "info" }]

/-- The option that asks for help. -/
def helpOption : OptionSpec where
  name := "help"
  short := some 'h'
  kind := .help
  summary := "Print help"

/-- The option that asks for the version. -/
def versionOption : OptionSpec where
  name := "version"
  short := some 'V'
  kind := .version
  summary := "Print version"

/-- The grammar of a command with options and operands of its own. -/
def commandGrammar (name summary : String) (operands : List OperandSpec) (own : List OptionSpec) :
    Grammar where
  name := programName ++ " " ++ name
  summary
  common := commonOptions
  own
  endings := [helpOption]
  operands

/-- The operand that names the description of the bus. -/
def configOperand : OperandSpec where
  name := "CONFIG"
  kind := .path
  summary := "Bus description (JSON): channel framing and entity schemas"

/-- The words behind `replay`. -/
def replayGrammar : Grammar :=
  commandGrammar "replay" "Reassemble and decode a captured byte stream" [configOperand]
    [.valued "hex" "HEX" "Captured bytes as hex (whitespace ignored)" .text,
      .valued "file" "FILE" "Read captured bytes from a binary file" .path,
      .valued "chunk" "N" "Feed the capture in chunks of N bytes. Default: one chunk" .count]

/-- The words behind `monitor`. -/
def monitorGrammar : Grammar :=
  commandGrammar "monitor" "Decode a live serial device (or stdin) until interrupted"
    [configOperand, { name := "DEVICE", summary := "Serial device path, or `-` for stdin" }]
    [.valued "count" "COUNT" "Exit after printing N events" .count]

/-- The words behind `checksum`. -/
def checksumGrammar : Grammar :=
  commandGrammar "checksum" "Compute a built-in checksum over header and data bytes" []
    [{ OptionSpec.valued "algorithm" "ALGORITHM"
          "Built-in algorithm name (add, xor, add_no_header, xor_no_header, ...)" .text
        with short := some 'a', isRequired := true },
      { OptionSpec.valued "header" "HEADER" "Header bytes as hex" .text with default := some "" },
      { OptionSpec.valued "data" "DATA" "Data bytes as hex" .text with isRequired := true }]

/-- The words behind `encode`. -/
def encodeGrammar : Grammar :=
  commandGrammar "encode" "Encode a value into field bytes" []
    [{ name := "value", kind := .value .text true, valueName := "VALUE",
        summary := "Value to encode. Parsed as a number when possible", isRequired := true },
      { OptionSpec.valued "encode" "ENCODE"
          "Encoding: none, bcd, ascii, signed_half_unit, multiply, add_offset" .text
        with default := some "none" },
      { OptionSpec.valued "length" "LENGTH" "Output width for integer packing" .count
        with default := some "1" },
      { name := "signed", kind := .flag },
      { name := "little-endian", kind := .flag },
      { name := "factor", kind := .value .real true, valueName := "FACTOR",
        summary := "Factor for `multiply`" },
      { name := "offset", kind := .value .real true, valueName := "OFFSET",
        summary := "Offset for `add_offset`" }]

/-- The words behind `version`. -/
def versionGrammar : Grammar :=
  commandGrammar "version" "Show version information" []
    [{ name := "extended", kind := .flag, summary := "Show extended build provenance" }]

/-- The words behind `help`, as they are explained. -/
def helpGrammar : Grammar where
  name := programName ++ " help"
  summary := "Print this message or the help of the given subcommand(s)"
  operands :=
    [{ name := "COMMAND", summary := "Print help for the subcommand(s)", isRepeated := true }]

/-- The grammars of all commands by name. -/
def grammars : List (String × Grammar) :=
  [("replay", replayGrammar), ("monitor", monitorGrammar), ("checksum", checksumGrammar),
    ("encode", encodeGrammar), ("version", versionGrammar), ("help", helpGrammar)]

/-- What may stand before the name of a command. -/
def topGrammar : Grammar where
  name := programName
  summary := "RS485 home-automation bus framing CLI"
  common := commonOptions
  endings := [helpOption, versionOption]
  subcommands := grammars.map fun (name, g) => { name, summary := g.summary }

/-! ## Reading -/

namespace Arguments

/-- The value of an option that has to be given. -/
def required (a : Arguments) (name : String) : Except Stop String :=
  match a.value? name with
  | some value => .ok value
  | none => .error .misuse

/-- The value of an option, read in a certain way. -/
def optional {α : Type} (a : Arguments) (name : String) (read : String → Option α) :
    Except Stop (Option α) :=
  match a.value? name with
  | none => .ok none
  | some value => match read value with
    | some x => .ok (some x)
    | none => .error .misuse

end Arguments

namespace Command

/-- Where the capture is found: exactly one place has to be given. -/
def source (a : Arguments) : Except Stop CaptureSource :=
  match a.value? "hex", a.value? "file" with
  | some text, none => .ok (.hex text)
  | none, some path => .ok (.file path)
  | _, _ => .error .misuse

/-- A `replay` command. -/
def ofReplay (a : Arguments) : Except Stop Command :=
  match a.operands with
  | [config] => do
    return .replay config (← source a) (← a.optional "chunk" readCount?)
  | _ => .error .misuse

/-- A `monitor` command. -/
def ofMonitor (a : Arguments) : Except Stop Command :=
  match a.operands with
  | [config, device] => do
    return .monitor config device (← a.optional "count" readCount?)
  | _ => .error .misuse

/-- A `checksum` command. -/
def ofChecksum (a : Arguments) : Except Stop Command := do
  return .checksum (← a.required "algorithm") ((a.value? "header").getD "") (← a.required "data")

/-- An `encode` command. -/
def ofEncode (a : Arguments) : Except Stop Command := do
  return .encode {
    value := ← a.required "value"
    encoding := (a.value? "encode").getD "none"
    length := (← a.optional "length" readCount?).getD 1
    signed := a.has "signed"
    order := if a.has "little-endian" then .littleEndian else .bigEndian
    factor := ← a.optional "factor" Binary64.ofText?
    offset := ← a.optional "offset" Binary64.ofText? }

/-- A command by its name, and the arguments given to it. -/
def ofWords (name : String) (words : List String) : Except Stop (Arguments × Command) := do
  let read (g : Grammar) (make : Arguments → Except Stop Command) := do
    let (s, _) ← g.scan {} words
    let a ← s.settle
    return (a, ← make a)
  match name with
  | "replay" => read replayGrammar ofReplay
  | "monitor" => read monitorGrammar ofMonitor
  | "checksum" => read checksumGrammar ofChecksum
  | "encode" => read encodeGrammar ofEncode
  | "version" => read versionGrammar fun a => .ok (.version (a.has "extended"))
  | _ => .error .misuse

end Command

namespace Invocation

/-- Help for the command named by these words, or for all. -/
def help : List String → Stop
  | [] => .help topGrammar true
  | [name] => match grammars.lookup name with
    | some g => .help g true
    | none => .misuse
  | _ => .misuse

/-- What a command line asks for. -/
def ofWords (words : List String) : Except Stop Invocation := do
  match ← topGrammar.scan {} words with
  | (_, []) => .error .misuse
  | (common, name :: rest) =>
    if name = "help" then .error (help rest)
    else
      let (own, command) ← Command.ofWords name rest
      let common ← common.settle
      let format := (own.value? "format").or (common.value? "format")
      return { format := format.bind fun name => OutputFormat.names.lookup name, command }

end Invocation
end Cli
end Fieldbus
