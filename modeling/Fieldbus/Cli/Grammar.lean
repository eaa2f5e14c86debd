import Fieldbus.Decimal.Reader
import Fieldbus.Json.Record

/-!
# Grammars of command lines

A `Grammar` says what the words of a command may be: options and operands, of which each one has a
kind of values and a line of help, or the name of a subcommand.  It is all that is needed to sort
the words (`Cli.Arguments`) and to explain them (`Cli.Help`).
-/

set_option autoImplicit false

namespace Fieldbus
namespace Cli

/-! ## Values -/

/-- One of the values that may be chosen, and what it means if that is not plain. -/
structure Choice where
  name : String
  summary : String := ""
deriving DecidableEq, Repr

/-- What a value may be. -/
inductive ValueKind where
  | text
  /-- The path of a file, which cannot be empty. -/
  | path
  | count
  | real
  | choice (choices : List Choice)
deriving DecidableEq, Repr

/-- A count: digits with an optional plus sign, at most `2 ^ 64 - 1`. -/
def readCount? (text : String) : Option Nat :=
  let digits := match text.toList with
    | '+' :: rest => rest
    | cs => cs
  if digits.isEmpty || !digits.all Char.isDigit then none
  else
    let n := Binary64.digitsValue digits
    if n ≤ Json.sizeLimit then some n else none

namespace ValueKind

/-- Is a text a value of this kind? -/
def admits (kind : ValueKind) (value : String) : Bool :=
  match kind with
  | text => true
  | path => !value.isEmpty
  | count => (readCount? value).isSome
  | real => (Binary64.ofText? value).isSome
  | choice choices => choices.any fun c => c.name = value

/-- The values that may be chosen. -/
def choices : ValueKind → List Choice
  | choice choices => choices
  | _ => []

end ValueKind

/-! ## Options and operands -/

/-- What follows an option. -/
inductive OptionKind where
  /-- Nothing; help is shown instead of anything else. -/
  | help
  /-- Nothing; the version is shown instead of anything else. -/
  | version
  | flag
  /-- A value; `hyphen` if it may begin with a hyphen even when it is a word of its own. -/
  | value (kind : ValueKind) (hyphen : Bool)
deriving DecidableEq, Repr

/-- An option. -/
structure OptionSpec where
  name : String
  short : Option Char := none
  kind : OptionKind
  /-- What the help calls the value. -/
  valueName : String := ""
  /-- A line of help. -/
  summary : String := ""
  /-- The value that holds when none is given. -/
  default : Option String := none
  isRequired : Bool := false
deriving DecidableEq, Repr

namespace OptionSpec

/-- The kind of the value, if the option takes one. -/
def valueKind? (o : OptionSpec) : Option ValueKind :=
  match o.kind with
  | .value kind _ => some kind
  | _ => none

/-- May the option take the next word as its value? -/
def takesWord (o : OptionSpec) (word : String) : Bool :=
  word = "-" || !word.startsWith "-" || match o.kind with
    | .value _ hyphen => hyphen
    | _ => false

end OptionSpec

/-- An operand. -/
structure OperandSpec where
  /-- What the help calls the operand. -/
  name : String
  kind : ValueKind := .text
  /-- A line of help. -/
  summary : String := ""
  /-- May it be left out, or given more than once? -/
  isRepeated : Bool := false
deriving DecidableEq, Repr

/-! ## Grammars -/

/-- A command that may be named, and a line of help for it. -/
structure Subcommand where
  name : String
  summary : String
deriving DecidableEq, Repr

/-- What the words of a command may be. -/
structure Grammar where
  /-- How the command is called. -/
  name : String
  /-- What the command does. -/
  summary : String
  /-- The options that all commands have. -/
  common : List OptionSpec := []
  /-- The options that only this command has. -/
  own : List OptionSpec := []
  /-- The options that end everything. -/
  endings : List OptionSpec := []
  operands : List OperandSpec := []
  /-- The commands one of which has to be named. -/
  subcommands : List Subcommand := []
deriving DecidableEq, Repr

namespace Grammar

/-- All options. -/
def options (g : Grammar) : List OptionSpec := g.common ++ g.own ++ g.endings

/-- Is a word the name of a subcommand? -/
def hasSubcommand (g : Grammar) (word : String) : Bool := g.subcommands.any fun c => c.name = word

end Grammar
end Cli
end Fieldbus
