import FilterStore.CommandLine.Host
import FilterStore.CommandLine.Invocation
import FilterStore.CommandLine.Report
import FilterStore.Settings

/-!
Running command lines.

* **Order.** The settings come first. A task needs a database that is there, then its content or
  the user's consent, and only then is the repository asked. What goes wrong earlier keeps all that
  comes later from happening.
* **Hosts.** `run` works on every host. `Call.run` runs a command line on a tree of files, and
  `runAll` several ones after another.
-/

namespace FilterStore.CommandLine

variable {m : Type → Type} {Handle : Type} [Monad m] [Host m Handle]

/-- The longest wait that a database knows, in milliseconds. -/
def longestWait : UInt64 := 2147483647

/-- Takes a result, or fails. -/
def orStop {ε α : Type} (fault : ε → CommandFault) (result : Except ε α) :
    ExceptT CommandFault m α :=
  ExceptT.mk (pure (result.mapError fault))

/-- The settings in force. -/
def settings (places : Places) : ExceptT CommandFault m Settings := do
  let file ← match places.config with
    | none => pure none
    | some path => some <$> (Host.readFile path : m (Except FileFault ByteArray))
  orStop .failure (Settings.load file places.dataDir)

/-- An open database. -/
structure Connection (Handle : Type) where
  /-- What the host calls it. -/
  handle : Handle
  /-- Its tables. -/
  database : Database
  /-- What may be done to them. -/
  writing : Writing

/-- Makes the database usable, or fails. -/
def orRefuse {α : Type} (result : Except AccessFault α) : ExceptT CommandFault m α :=
  orStop (.failure ∘ .storage ∘ .access) result

/-- Opens the database, making it and its directory where they are missing. -/
def openDatabase (s : Settings) : ExceptT CommandFault m (Connection Handle) := do
  orStop (.failure ∘ .file) (← (Host.makeDirectories s.dataDir : m (Except FileFault Unit)))
  let l ← orRefuse (Locator.ofText s.databasePath)
  let h ← orRefuse (← (Host.connect l : m (Except AccessFault Handle)))
  if longestWait < s.busyTimeout then throw .waitTooLong
  let (db, writing) ← orRefuse (← (Host.load h : m (Except AccessFault (Database × Writing))))
  return ⟨h, db, writing⟩

/-- Closes an open database and leaves it with the given tables. -/
def closeDatabase (c : Connection Handle) (db : Database) : m Unit :=
  Host.close c.handle db c.writing

/-- Opens the database, which must be there. -/
def openPresent (s : Settings) : ExceptT CommandFault m (Connection Handle) := do
  if ← (Host.isPresent s.databasePath : m Bool) then openDatabase s
  else throw (.noDatabase s.databasePath)

/-- The content that is to be stored. -/
def readContent : Option String → ExceptT CommandFault m String
  | some path => do
    let bytes ← (Host.readFile path : m (Except FileFault ByteArray))
    orStop (.unreadableFile path) (bytes >>= textOfBytes)
  | none => do
    let bytes ← (Host.readInput : m ByteArray)
    orStop .unreadableInput (textOfBytes bytes)

/-- Makes sure that the user consents. Without a terminal nobody can be asked. -/
def Consent.require (consent : Consent) : Except CommandFault Unit :=
  if consent.yes then .ok ()
  else if consent.nonInteractive then .error .consentNeeded
  else .error .noTerminal

/-- Gets what a task needs before the repository is asked: the content to be stored, or consent. -/
def prepare (task : Task) : ExceptT CommandFault m String := do
  match task, task.consent? with
  | .put _ _ file, _ => readContent file
  | _, some consent => do
    orStop id consent.require
    return ""
  | _, none => return ""

/-- Performs a task on an open database and closes it. -/
def performTask (c : Connection Handle) (task : Task) (content : String) :
    m (Outcome String) := do
  let outcome := task.performAs c.writing (← Host.now) content c.database
  closeDatabase c outcome.database
  return outcome

/-- Runs a command with the given settings. -/
def runCommand (s : Settings) : Command → m Report
  | .init => do
    match ← (openDatabase s).run with
    | .error fault => return .ran (.error fault) []
    | .ok c =>
      closeDatabase c c.database
      let output := s!"Initialized database at {s.databasePath}\n"
      return .ran (.ok output) [.opened s.databasePath]
  | .task task => do
    match ← (openPresent s).run with
    | .error fault => return .ran (.error fault) []
    | .ok c =>
      match ← (prepare task).run with
      | .error fault =>
        closeDatabase c c.database
        return .ran (.error fault) [.opened s.databasePath]
      | .ok content =>
        let outcome ← performTask c task content
        return .ran (outcome.result.mapError .failure) (.opened s.databasePath :: outcome.events)

/-- Runs an invocation. -/
def Invocation.run (invocation : Invocation) : m Report := do
  match ← (settings invocation.places).run with
  | .ok s => runCommand s invocation.command
  | .error fault => return .ran (.error fault) []

/-- Runs a command line, given by the words behind the name of the program. -/
def run (words : List String) : m Report :=
  match Invocation.ofWords words with
  | .ok invocation => invocation.run
  | .error stop => pure (.stopped stop)

/-! ### Worlds -/

/-- A command line with what it finds on the standard input and the time at which it runs. -/
structure Call where
  /-- The words behind the name of the program. -/
  words : List String
  /-- The bytes of the standard input. -/
  input : ByteArray
  /-- The time. -/
  now : Instant

/-- Runs a command line on files. -/
def Call.run (call : Call) (files : FileTree) : Report × FileTree :=
  let (report, world) := CommandLine.run (m := StateM World) call.words ⟨files, call.input, call.now⟩
  (report, world.files)

/-- Runs command lines one after another on the same files. -/
def runAll : List Call → FileTree → List Report × FileTree
  | [], files => ([], files)
  | call :: rest, files =>
    let (report, after) := call.run files
    let (reports, final) := runAll rest after
    (report :: reports, final)

end FilterStore.CommandLine
