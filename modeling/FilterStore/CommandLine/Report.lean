import FilterStore.CommandLine.Usage
import FilterStore.Repository.Event

/-!
How a command line ends.

* **Causes.** A `CommandFault` is why a command fails: a failure of the repository, or trouble
  before the repository is asked.
* **Chains.** Below a failure that has causes of its own they are listed (`causeLines`).
* **Reports.** A `Report` is how a command line ends, with what was reported on the way. The exit
  code is 0 after success, 1 after a failure and 2 after a faulty command line.
-/

namespace FilterStore.CommandLine

/-! ### Causes -/

/-- A text with blanks in front of all its lines but the first. -/
def indent (width : Nat) (text : String) : String :=
  text.replace "\n" ("\n" ++ String.ofList (List.replicate width ' '))

/-- Causes below a message: one alone, or several with numbers. -/
def causeLines : List String → String
  | [] => ""
  | [cause] => "\n\nCaused by:\n    " ++ indent 4 cause
  | causes =>
    "\n\nCaused by:" ++ String.join (causes.mapIdx fun i cause => s!"\n    {i}: {indent 7 cause}")

/-- Why a command fails. -/
inductive CommandFault where
  /-- The repository or its settings fail. -/
  | failure (failure : Failure)
  /-- There is no database yet. -/
  | noDatabase (path : String)
  /-- The file of a content cannot be read. -/
  | unreadableFile (path : String) (fault : FileFault)
  /-- The standard input cannot be read. -/
  | unreadableInput (fault : FileFault)
  /-- A question must be asked, and none may be. -/
  | consentNeeded
  /-- A question must be asked, and there is no terminal to ask at. -/
  | noTerminal
  /-- The settings ask for a longer wait than the database knows. -/
  | waitTooLong
  deriving DecidableEq, Repr

namespace CommandFault

/-- What is said about the failure of a command. -/
def message : CommandFault → String
  | .failure f => f.message ++ causeLines f.causes
  | .noDatabase path => s!"Database not found at {path}. Run 'sievekeeper init' first."
  | .unreadableFile path fault => s!"Failed to read {path}: {fault.message}"
  | .unreadableInput fault => fault.message
  | .consentNeeded => "--yes is required for destructive operations in non-interactive mode"
  | .noTerminal => "The input device is not a TTY"
  | .waitTooLong => "too big"

/-- The exit code. -/
def exitCode : CommandFault → UInt32
  | .waitTooLong => 101
  | _ => 1

end CommandFault

/-! ### Reports -/

/-- How a command line ends. -/
inductive Report where
  /-- Nothing was run. -/
  | stopped (stop : Stop)
  /-- A command was run. It gave an output or failed, and reported events on the way. -/
  | ran (result : Except CommandFault String) (events : List Event)

namespace Report

/-- The exit code. -/
def exitCode : Report → UInt32
  | .stopped (.help _) => 0
  | .stopped _ => 2
  | .ran (.ok _) _ => 0
  | .ran (.error fault) _ => fault.exitCode

/-- What is printed. -/
def output : Report → String
  | .stopped (.help text) => text
  | .stopped _ => ""
  | .ran (.ok text) _ => text
  | .ran (.error _) _ => ""

/-- What is said about a failure or a faulty command line. -/
def error? : Report → Option String
  | .stopped (.help _) => none
  | .stopped stop => some stop.message
  | .ran (.ok _) _ => none
  | .ran (.error fault) _ => some fault.message

/-- What was reported on the way. -/
def events : Report → List Event
  | .stopped _ => []
  | .ran _ events => events

end Report

end FilterStore.CommandLine
