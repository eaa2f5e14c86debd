import Fieldbus.Cli.Grammar

/-!
# Words of a command line

A command line is a list of words.  `Grammar.scan` sorts them into options and operands:

* `--name` is an option, and so is `-n` for one that has a short name.
* An option that takes a value takes what is attached to it, `--name=value`, `-n=value` or `-nvalue`,
  and else the next word.  A next word that begins with a hyphen is not taken, except a hyphen alone,
  and except by an option that says so.
* An option that asks for help or for the version ends the scan; by its short name it does so
  whatever follows the letter.
* `--` alone makes operands of all words after it.
* A word that begins with any other letter, and a hyphen alone, is an operand, unless it is the name
  of a subcommand, at which scanning ends.
* No option may be given twice, and no more operands than the grammar has names for.

A value that is a word of its own, and an operand, is *pending* until the next option or operand
begins: only then it is looked at.  So a wrong value is told before the help that is asked for
behind it, but a value before the name of a subcommand waits until that one has been read.
-/

set_option autoImplicit false

namespace Fieldbus
namespace Cli

/-- Why no command is carried out. -/
inductive Stop where
  /-- The words make no sense. -/
  | misuse
  /-- Help was asked for, full help or short. -/
  | help (grammar : Grammar) (full : Bool)
  /-- The version was asked for. -/
  | version
deriving DecidableEq, Repr

/-- The options and operands found. -/
structure Arguments where
  /-- The values of options by their names, that of a flag being empty. -/
  values : List (String × String) := []
  operands : List String := []
deriving DecidableEq, Repr

namespace Arguments

/-- The value of an option. -/
def value? (a : Arguments) (name : String) : Option String := a.values.lookup name

/-- Was a flag or option given? -/
def has (a : Arguments) (name : String) : Bool := (a.value? name).isSome

/-- The arguments with one more option, which must not be there yet, nor have a wrong value. -/
def addOption (a : Arguments) (o : OptionSpec) (value : String) : Except Stop Arguments :=
  if a.has o.name || !(o.valueKind?.all fun kind => kind.admits value) then .error .misuse
  else .ok { a with values := a.values ++ [(o.name, value)] }

/-- The arguments with one more operand. -/
def addOperand (a : Arguments) (o : OperandSpec) (value : String) : Except Stop Arguments :=
  if o.kind.admits value then .ok { a with operands := a.operands ++ [value] } else .error .misuse

end Arguments

/-! ## Words -/

/-- What a word is, seen alone. -/
inductive Word where
  | operand
  /-- `--` -/
  | separator
  /-- `--name` or `--name=value` -/
  | long (name : String) (attached : Option String)
  /-- `-n`, and what follows the letter -/
  | short (letter : Char) (attached : Option String)
deriving DecidableEq, Repr

namespace Word

/-- Is it an option by its short name? -/
def isShort : Word → Bool
  | short _ _ => true
  | _ => false

/-- The part of a word behind the first `=`, if there is one, and the part before it. -/
def splitValue (cs : List Char) : String × Option String :=
  let name := String.ofList (cs.takeWhile (· ≠ '='))
  match cs.dropWhile (· ≠ '=') with
  | [] => (name, none)
  | _ :: value => (name, some (String.ofList value))

/-- What a word is. -/
def ofString (word : String) : Word :=
  match word.toList with
  | ['-', '-'] => separator
  | '-' :: '-' :: cs =>
    let (name, attached) := splitValue cs
    long name attached
  | ['-'] => operand
  | ['-', letter] => short letter none
  | '-' :: letter :: '=' :: value => short letter (some (String.ofList value))
  | '-' :: letter :: value => short letter (some (String.ofList value))
  | _ => operand

end Word

/-! ## Scanning -/

/-- What has been read but not looked at. -/
inductive Pending where
  | option (spec : OptionSpec) (value : String)
  | operand (spec : OperandSpec) (value : String)
deriving DecidableEq, Repr

/-- How far a command line has been read. -/
structure Scan where
  found : Arguments := {}
  pending : Option Pending := none
deriving DecidableEq, Repr

namespace Scan

/-- How many operands have been read. -/
def operandCount (s : Scan) : Nat :=
  s.found.operands.length + match s.pending with
    | some (.operand ..) => 1
    | _ => 0

/-- The arguments found, what was pending among them. -/
def settle (s : Scan) : Except Stop Arguments :=
  match s.pending with
  | none => .ok s.found
  | some (.option o value) => s.found.addOption o value
  | some (.operand o value) => s.found.addOperand o value

/-- Something new is pending. -/
def hold (s : Scan) (p : Pending) : Except Stop Scan := do
  return { found := ← s.settle, pending := some p }

/-- An option with an attached value, or a flag. -/
def accept (s : Scan) (o : OptionSpec) (value : String) : Except Stop Scan := do
  return { found := ← (← s.settle).addOption o value }

/-- The scan is stopped, unless what is pending stops it for another reason. -/
def stop {α : Type} (s : Scan) (reason : Stop) : Except Stop α := do
  let _ ← s.settle
  .error reason

end Scan

namespace Grammar

/-- The option that a word names, and the value attached to it. -/
def option? (g : Grammar) : Word → Option (OptionSpec × Option String)
  | .long name attached => (g.options.find? fun o => o.name = name).map (·, attached)
  | .short letter attached => (g.options.find? fun o => o.short = some letter).map (·, attached)
  | _ => none

/-- An operand has been found. -/
def holdOperand (g : Grammar) (s : Scan) (word : String) : Except Stop Scan :=
  match g.operands[s.operandCount]? with
  | some o => s.hold (.operand o word)
  | none => .error .misuse

/-- An option that ends the scan has been found. -/
def stopAt {α : Type} (g : Grammar) (s : Scan) (o : OptionSpec) (word : Word) :
    Option String → Except Stop α
  | none => s.stop (if o.kind = .version then .version else .help g (!word.isShort))
  | some _ =>
    if word.isShort then s.stop (if o.kind = .version then .version else .help g false)
    else .error .misuse

/-- The words are sorted into options and operands, behind those found before; the rest begins with
the name of a subcommand. -/
def scan (g : Grammar) (s : Scan) : List String → Except Stop (Scan × List String)
  | [] => .ok (s, [])
  | word :: rest =>
    if g.hasSubcommand word then .ok (s, word :: rest)
    else match Word.ofString word with
      | .operand => do g.scan (← g.holdOperand s word) rest
      | .separator => do return (← rest.foldlM g.holdOperand s, [])
      | found => match g.option? found with
        | none => .error .misuse
        | some (o, attached) =>
          match o.kind, attached, rest with
          | .flag, none, rest => do g.scan (← s.accept o "") rest
          | .flag, some _, _ => .error .misuse
          | .value .., some value, rest => do g.scan (← s.accept o value) rest
          | .value .., none, value :: rest =>
            if o.takesWord value then do g.scan (← s.hold (.option o value)) rest
            else .error .misuse
          | .value .., none, [] => .error .misuse
          | _, attached, _ => g.stopAt s o found attached

end Grammar
end Cli
end Fieldbus
