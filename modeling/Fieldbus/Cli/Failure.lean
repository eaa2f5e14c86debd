import Fieldbus.Bus.Config
import Fieldbus.Text.Hexadecimal

/-!
# Failures

Everything that can go wrong with a command, how it is worded, and the code the program exits with.
-/

set_option autoImplicit false

namespace Fieldbus
namespace Cli

/-- Why a file cannot be read. -/
inductive FileError where
  | notFound
  | permissionDenied
  | notADirectory
  | isADirectory
  | nameTooLong
  | other (text : String)
deriving DecidableEq, Repr

/-- The wording of a file error, as the operating system has it. -/
def FileError.message : FileError → String
  | notFound => "No such file or directory (os error 2)"
  | permissionDenied => "Permission denied (os error 13)"
  | notADirectory => "Not a directory (os error 20)"
  | isADirectory => "Is a directory (os error 21)"
  | nameTooLong => "File name too long (os error 36)"
  | other text => text

/-- The codes the program exits with. -/
inductive ExitCode where
  | success
  /-- A file is missing. -/
  | failure
  /-- The command line makes no sense. -/
  | misuse
  | permissionDenied
  /-- What was read or asked to be encoded is no good. -/
  | badData
  /-- The command line is well formed, but asks for something that does not exist. -/
  | badRequest
  | internal
deriving DecidableEq, Repr

/-- The number of an exit code. -/
def ExitCode.number : ExitCode → UInt8
  | success => 0
  | failure => 1
  | misuse => 2
  | permissionDenied => 50
  | badData => 60
  | badRequest => 64
  | internal => 125

/-- Why a command failed. -/
inductive Failure where
  | unknownAlgorithm (name : String)
  /-- The text of the named argument spells no bytes. -/
  | badHex (argument : String) (cause : Text.HexError)
  | unknownEncoding (name : String)
  | encoding (cause : SchemaError)
  | notEncodable (value : String) (encoding : EncodingKind)
  | noChunk
  /-- A file cannot be read; `attempt` says what was tried. -/
  | file (attempt : String) (cause : FileError)
  /-- The description of the bus is not text. -/
  | configNotText (path : String)
  /-- The text in the file does not describe a bus. -/
  | badConfig (path : String)
  | bus (cause : BusError)
deriving DecidableEq, Repr

namespace Failure

/-- What is tried when a description is read. -/
def configAttempt (path : String) : String := "read config " ++ path

/-- The wording of a failure. -/
def message : Failure → String
  | unknownAlgorithm name => s!"unknown checksum algorithm '{name}'"
  | badHex argument cause => argument ++ ": " ++ cause.message
  | unknownEncoding name => s!"unknown encoding '{name}'"
  | encoding cause => "encode: " ++ cause.message
  | notEncodable value kind => s!"value '{value}' cannot be encoded as " ++ kind.name
  | noChunk => "--chunk must be at least 1"
  | file attempt cause => attempt ++ ": " ++ cause.message
  | configNotText path => configAttempt path ++ ": stream did not contain valid UTF-8"
  | badConfig path => configAttempt path ++ ": not the description of a bus"
  | bus cause => cause.message

/-- The exit code of a failure. -/
def code : Failure → ExitCode
  | unknownAlgorithm _ | badHex .. | unknownEncoding _ | encoding _ | noChunk => .badRequest
  | notEncodable .. | badConfig _ => .badData
  | file _ .notFound => .failure
  | file _ .permissionDenied => .permissionDenied
  | file .. | configNotText _ => .internal
  | bus (.channel _) => .badRequest
  | bus (.entity ..) => .badData

end Failure
end Cli
end Fieldbus
