import FilterStore.Json.Codec
import FilterStore.Repository.Method
import FilterStore.Store.Locator

/-!
What the command line can be asked to do with a repository.

* **Tasks.** A `Task` is a method of the repository with arguments, and with how its answer is to
  be shown. Deleting needs the user's consent.
* **Answers.** `Task.perform` calls the method and says in words what was done, or shows what was
  found. `Task.performAs` does so as far as the database may be written.
-/

namespace FilterStore.CommandLine

/-- What the user says about questions before something is deleted. -/
structure Consent where
  /-- Every question is answered with yes. -/
  yes : Bool
  /-- No question may be asked. -/
  nonInteractive : Bool
  deriving DecidableEq, Repr

/-- What is to be done with a repository. -/
inductive Task where
  /-- Store a script, from a file or from the standard input. -/
  | put (owner name : String) (file : Option String)
  /-- Show the content of a script. -/
  | get (owner name : String)
  /-- List the scripts of an owner, for people or as JSON. -/
  | list (owner : String) (json : Bool)
  /-- Show the active script of an owner, or the date of its activation. -/
  | active (owner : String) (date : Bool)
  /-- Make a script the active one. -/
  | activate (owner name : String)
  /-- Switch the active script off. -/
  | deactivate (owner : String)
  /-- Delete a script that is not active. -/
  | delete (owner name : String) (consent : Consent)
  /-- Rename a script. -/
  | rename (owner source target : String)
  /-- Find out whether a script of a size would fit. -/
  | check (owner name : String) (size : UInt64)
  /-- Show a quota. -/
  | getQuota (key : QuotaKey)
  /-- Set a quota. -/
  | setQuota (key : QuotaKey) (limit : Limit)
  /-- Remove a quota. -/
  | removeQuota (key : QuotaKey) (consent : Consent)
  deriving DecidableEq, Repr

/-- A script in a listing for people. -/
def summaryLine (s : Summary) : String :=
  "  " ++ s.name ++ (if s.active then "  (active)" else "") ++ "\n"

/-- The scripts of an owner as a listing shows them. -/
def listing (owner : String) (json : Bool) (scripts : List Summary) : String :=
  if json then listingJson owner scripts ++ "\n"
  else if scripts = [] then "No scripts found.\n"
  else String.join (scripts.map summaryLine)

namespace Task

/-- The consent that the task needs. -/
def consent? : Task → Option Consent
  | .delete _ _ consent | .removeQuota _ consent => some consent
  | _ => none

/-- Performs the task at a given time, with the content that was read for it, and says what was done
or found. -/
def perform (now : Instant) (content : String) (task : Task) (db : Database) : Outcome String :=
  match task with
  | .put owner name _ =>
    (Repository.put owner name content db).map fun _ =>
      s!"Stored script '{name}' for {owner} ({content.utf8ByteSize} bytes)\n"
  | .get owner name => Repository.get owner name db
  | .list owner json => (Repository.list owner db).map (listing owner json)
  | .active owner false => Repository.getActive owner db
  | .active owner true =>
    (Repository.getActivationDate owner db).map fun t => Timestamp.write t ++ "\n"
  | .activate owner name =>
    (Repository.setActive now owner name db).map fun _ =>
      s!"Activated script '{name}' for {owner}\n"
  | .deactivate owner =>
    (Repository.setActive now owner Name.noScript db).map fun _ =>
      s!"No active script for {owner}\n"
  | .delete owner name _ =>
    (Repository.delete owner name db).map fun _ => s!"Deleted script '{name}' for {owner}\n"
  | .rename owner source target =>
    (Repository.rename owner source target db).map fun _ =>
      s!"Renamed script '{source}' to '{target}' for {owner}\n"
  | .check owner name size =>
    (Repository.haveSpace owner name size db).map fun _ =>
      s!"{size} bytes fit for '{name}' of {owner}\n"
  | .getQuota key => (Repository.getQuota key db).map fun limit => limit.text ++ "\n"
  | .setQuota key limit =>
    (Repository.setQuota key limit db).map fun _ => s!"Set {key.text} to {limit.text}\n"
  | .removeQuota key _ =>
    (Repository.removeQuota key db).map fun _ => s!"Removed {key.text}\n"

/-! ### Databases that may not be written -/

/-- The operation by which a task is performed, and whose rows it is about. -/
def operation : Task → String × String
  | .put owner _ _ => ("put_script", owner)
  | .get owner _ => ("get_script", owner)
  | .list owner _ => ("list_scripts", owner)
  | .active owner _ => ("get_active", owner)
  | .activate owner _ | .deactivate owner => ("set_active", owner)
  | .delete owner _ _ => ("delete_script", owner)
  | .rename owner _ _ => ("rename_script", owner)
  | .check owner _ _ => ("have_space", owner)
  | .getQuota key => ("get_quota", key.storageKey)
  | .setQuota key _ => ("set_quota", key.storageKey)
  | .removeQuota key _ => ("remove_quota", key.storageKey)

/-- Whether a task that succeeds has written, given what it reported. Where there was no active
script to switch off nothing is written. -/
def hasWritten (events : List Event) : Task → Bool
  | .get _ _ | .list _ _ | .active _ _ | .check _ _ _ | .getQuota _ => false
  | .activate _ _ | .deactivate _ => !events.isEmpty
  | .put _ _ _ | .delete _ _ _ | .rename _ _ _ | .setQuota _ _ | .removeQuota _ _ => true

/-- Whether an outcome of the task comes about as far as the database may be written. What a task
refuses it refuses before its first write, and bad names before it begins. -/
def isPossible (writing : Writing) (outcome : Outcome String) (task : Task) : Bool :=
  match writing, outcome.result with
  | .allowed, _ | .refused, .error _ | .sealed, .error (.badName _ _) => true
  | .refused, .ok _ => !task.hasWritten outcome.events
  | .sealed, _ => false

/-- The outcome of the task where the database keeps it from being performed. -/
def prevented (task : Task) (db : Database) : Outcome String :=
  let failure := Failure.storage (.access .readOnly)
  let (operation, owner) := task.operation
  ⟨.error failure, [.failed operation owner failure], db⟩

/-- Performs the task as far as the database may be written. -/
def performAs (writing : Writing) (now : Instant) (content : String) (task : Task) (db : Database) :
    Outcome String :=
  let outcome := task.perform now content db
  if task.isPossible writing outcome then outcome else task.prevented db

end Task

end FilterStore.CommandLine
