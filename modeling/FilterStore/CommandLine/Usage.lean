import FilterStore.Quota.Reading
import FilterStore.Text.Terminal

/-!
What can be wrong with a command line.

* **Causes.** `UsageFault` has one constructor for each way in which the words of a command line do
  not make a command.
* **Stops.** A command line that asks for help, or names no command at all, is answered without
  running anything, and so is a faulty one: `Stop`.
* **Wording.** `UsageFault.message` words a fault with styles, and `Stop.message` is what is said: a
  plain text, whatever the words of the command line hold.
-/

namespace FilterStore.CommandLine

open Terminal

/-! ### Causes -/

/-- Why the words of a command line do not make a command. -/
inductive UsageFault where
  /-- No argument or option of this spelling can stand here. -/
  | unexpectedArgument (word : String)
  /-- A command is expected, and this is none. -/
  | unknownCommand (word : String)
  /-- The program, or the group of commands, needs a command behind it. -/
  | missingCommand (program : String)
  /-- An argument is missing. -/
  | missingArguments
  /-- An option is without the value it needs. -/
  | missingValue (label : String)
  /-- The value of an argument cannot be read. -/
  | invalidValue (value label reason : String)
  /-- A value is attached to an option that takes none. -/
  | excessValue (value label : String)
  /-- An option is given twice. -/
  | repeated (label : String)
  deriving DecidableEq, Repr

/-- Why a command line is answered without running anything. -/
inductive Stop where
  /-- Help is asked for. -/
  | help (text : String)
  /-- There is nothing on the command line: what could be done is said instead. -/
  | nothingAsked (text : String)
  /-- The command line is faulty. -/
  | fault (fault : UsageFault)
  deriving DecidableEq, Repr

/-! ### Wording -/

/-- What is said about a faulty command line, with styles. -/
def UsageFault.message : UsageFault → String
  | .unexpectedArgument word => s!"unexpected argument '{Style.refused.apply word}' found"
  | .unknownCommand word => s!"unrecognized subcommand '{Style.refused.apply word}'"
  | .missingCommand program =>
    s!"'{Style.refused.apply program}' requires a subcommand but one was not provided"
  | .missingArguments => "the following required arguments were not provided:"
  | .missingValue label =>
    s!"a value is required for '{Style.refused.apply label}' but none was supplied"
  | .invalidValue value label reason =>
    s!"invalid value '{Style.refused.apply value}' for '{Style.typed.apply label}': {reason}"
  | .excessValue value label =>
    s!"unexpected value '{Style.refused.apply value}' for '{Style.typed.apply label}' found; " ++
      "no more were expected"
  | .repeated label => s!"the argument '{Style.refused.apply label}' cannot be used multiple times"

/-- What is said about every faulty command line, behind its fault. -/
def advice : String :=
  "\n\nFor more information, try '" ++ Style.typed.apply "--help" ++ "'."

/-- What is said instead of running anything. The words of a faulty command line may hold control
sequences of their own, and are left out together with them. -/
def Stop.message : Stop → String
  | .help text | .nothingAsked text => text
  | .fault f => Terminal.plain (Style.alarm.apply "error:" ++ " " ++ f.message ++ advice)

end FilterStore.CommandLine
