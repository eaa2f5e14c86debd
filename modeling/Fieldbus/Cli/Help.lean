import Fieldbus.Cli.Grammar

/-!
# Help

`Grammar.helpLines` explains a command: what it does, how it is called, and one entry for every
subcommand, operand and option.  In short help an entry is one line, its text in a column of its
own.  In full help the text stands below, with one line for every note; it is only there for a
command some choice of which needs explaining.
-/

set_option autoImplicit false

namespace Fieldbus
namespace Cli

/-- An entry of the help: what is explained, its explanation, remarks, and the choices. -/
structure HelpEntry where
  head : String
  /-- The part of the head that counts for the width of its column. -/
  key : String
  text : String
  notes : List String := []
  choices : List Choice := []

namespace HelpEntry

/-- So many blanks. -/
def blanks (n : Nat) : String := String.ofList (List.replicate n ' ')

/-- The line of an entry in short help; the text is two places behind the longest key. -/
def line (longest : Nat) (e : HelpEntry) : String :=
  "  " ++ e.head ++ blanks (longest + 2 - e.key.length)
    ++ " ".intercalate ((if e.text.isEmpty then [] else [e.text]) ++ e.notes)

/-- The entries of short help. -/
def lines (entries : List HelpEntry) : List String :=
  let longest := entries.foldl (fun n e => max n e.key.length) 2
  entries.map (line longest)

/-- A choice and its meaning, aligned with those of the other choices. -/
def choiceText (longest : Nat) (c : Choice) : String :=
  if c.summary.isEmpty then c.name
  else c.name ++ ": " ++ blanks (longest - c.name.length) ++ c.summary

/-- Are the choices explained one by one? -/
def explainsChoices (choices : List Choice) : Bool := choices.any fun c => !c.summary.isEmpty

/-- The lines of an entry in full help. -/
def fullLines (e : HelpEntry) : List String :=
  let paragraph := blanks 10
  let notes := if e.notes.isEmpty then [] else "" :: e.notes
  let choices :=
    if explainsChoices e.choices then
      let longest := e.choices.foldl (fun n c => max n c.name.length) 0
      ["", paragraph ++ "Possible values:"]
        ++ e.choices.map fun c => paragraph ++ "- " ++ choiceText longest c
    else []
  ["  " ++ e.head] ++ (e.text :: notes).map (paragraph ++ ·) ++ choices

end HelpEntry

namespace OptionSpec

/-- An option by its name and what follows it. -/
def display (o : OptionSpec) : String :=
  "--" ++ o.name ++ if o.valueName.isEmpty then "" else " <" ++ o.valueName ++ ">"

/-- The key by which the options at one place are ordered: the letter, else the name. -/
def sortKey (o : OptionSpec) : String :=
  match o.short with
  | some letter => String.ofList [letter.toLower, if letter.isUpper then '1' else '0']
  | none => o.name

/-- The remarks on an option: its default and, unless they are explained one by one, the choices. -/
def notes (full : Bool) (o : OptionSpec) : List String :=
  let choices := (o.valueKind?.map ValueKind.choices).getD []
  let default := match o.default with
    | some value => ["[default: " ++ value ++ "]"]
    | none => []
  let possible :=
    if choices.isEmpty || (full && HelpEntry.explainsChoices choices) then []
    else ["[possible values: " ++ ", ".intercalate (choices.map Choice.name) ++ "]"]
  default ++ possible

/-- The line of help of an option.  Of the two kinds of help each one hints at the other one, if
there are two. -/
def helpText (hasFull full : Bool) (o : OptionSpec) : String :=
  if o.kind ≠ .help || !hasFull then o.summary
  else o.summary ++ if full then " (see a summary with '-h')" else " (see more with '--help')"

/-- The entry of an option. -/
def entry (hasFull full : Bool) (o : OptionSpec) : HelpEntry where
  head := (match o.short with
    | some letter => String.ofList ['-', letter, ',', ' ']
    | none => "    ") ++ o.display
  key := o.display
  text := o.helpText hasFull full
  notes := o.notes full
  choices := (o.valueKind?.map ValueKind.choices).getD []

/-- Two lists of options, those at the same place in the order of their keys. -/
def interleave : List OptionSpec → List OptionSpec → List OptionSpec
  | a :: as, b :: bs =>
    if a.sortKey ≤ b.sortKey then a :: b :: interleave as bs else b :: a :: interleave as bs
  | [], bs => bs
  | as, [] => as

end OptionSpec

namespace OperandSpec

/-- An operand as the help shows it. -/
def display (o : OperandSpec) : String :=
  if o.isRepeated then "[" ++ o.name ++ "]..." else "<" ++ o.name ++ ">"

/-- The entry of an operand. -/
def entry (o : OperandSpec) : HelpEntry where
  head := o.display
  key := o.display
  text := o.summary

end OperandSpec

namespace Grammar

/-- Is there full help as well as short help? -/
def hasFullHelp (g : Grammar) : Bool :=
  g.options.any fun o => HelpEntry.explainsChoices ((o.valueKind?.map ValueKind.choices).getD [])

/-- How a command is called. -/
def usage (g : Grammar) : String :=
  let optional := g.options.any fun o => !o.isRequired && o.kind ≠ .help && o.kind ≠ .version
  " ".intercalate <|
    ["Usage:", g.name] ++ (if optional then ["[OPTIONS]"] else [])
      ++ (g.own.filter OptionSpec.isRequired).map OptionSpec.display
      ++ g.operands.map OperandSpec.display
      ++ (if g.subcommands.isEmpty then [] else ["<COMMAND>"])

/-- A part of the help under a title, if it has entries; the entries of full help are separated by
empty lines. -/
def section? (full : Bool) (title : String) (entries : List HelpEntry) : List (List String) :=
  if entries.isEmpty then []
  else if full then [title :: [""].intercalate (entries.map HelpEntry.fullLines)]
  else [title :: HelpEntry.lines entries]

/-- The lines of the help for a command. -/
def helpLines (full : Bool) (g : Grammar) : List String :=
  let full := full && g.hasFullHelp
  let subcommands := g.subcommands.map fun c =>
    ({ head := c.name, key := c.name, text := c.summary } : HelpEntry)
  let options := OptionSpec.interleave g.common g.own ++ g.endings
  [""].intercalate <|
    [[g.summary], [g.usage]] ++ section? false "Commands:" subcommands
      ++ section? full "Arguments:" (g.operands.map OperandSpec.entry)
      ++ section? full "Options:" (options.map (OptionSpec.entry g.hasFullHelp full))

end Grammar
end Cli
end Fieldbus
