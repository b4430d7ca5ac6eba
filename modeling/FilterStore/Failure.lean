import FilterStore.Files.Fault
import FilterStore.Name
import FilterStore.Quota.Basic
import FilterStore.Time.Reading

/-!
Why an operation fails.

* **Causes.** `Failure` has one constructor for each cause; the causes inside the database are a
  type of their own (`StorageFault`), and so are those of files (`FileFault`, `AccessFault`).
* **Wording.** `Failure.message` is the one place where a failure is put into words.
* **Chains.** `Failure.causes` lists what is behind a failure of the database or the file system.
* **Side.** `Failure.isStorage` tells trouble with the database or the file system from a refusal
  by a rule of the domain.
-/

namespace FilterStore

/-! ### Causes -/

/-- Trouble with the database: one that cannot be used, rows that cannot be read, and rules of its
tables that a write would break. -/
inductive StorageFault where
  /-- A script row has a negative size. -/
  | negativeSize
  /-- A quota row has a negative limit. -/
  | negativeLimit
  /-- The activation date of a script row is not a date. -/
  | unreadableDate (fault : Timestamp.Fault)
  /-- A second row of an owner would be marked active. -/
  | secondActive
  /-- A second row would have the same owner and name. -/
  | duplicateScript
  /-- A second quota row would have the same key. -/
  | duplicateQuota
  /-- A row would be marked active without a date, or have a date without the mark. -/
  | dateWithoutMark
  /-- The database cannot be used. -/
  | access (fault : AccessFault)
  deriving DecidableEq, Repr

/-- Why an operation fails. -/
inductive Failure where
  /-- Trouble inside the database. -/
  | storage (fault : StorageFault)
  /-- The owner has no script of this name. -/
  | scriptNotFound (name owner : String)
  /-- The owner has no active script. -/
  | noActiveScript (owner : String)
  /-- There is no such quota entry. -/
  | quotaNotFound (key : QuotaKey)
  /-- The requested bytes do not fit beside the used ones. -/
  | quotaExceeded (owner : String) (used requested limit : UInt64)
  /-- The owner already has a script of this name. -/
  | nameTaken (name owner : String)
  /-- Something already exists, in the words of the caller of a transaction. -/
  | clash (what : String)
  /-- The script is the active one of its owner. -/
  | scriptActive (name owner : String)
  /-- A text is not a name. -/
  | badName (role : Name.Role) (fault : Name.Fault)
  /-- A text is not a limit. -/
  | notALimit (text : String)
  /-- The size of a script does not fit its column. -/
  | scriptTooLarge (name : String)
  /-- A limit does not fit its column. -/
  | limitTooLarge (count : UInt64)
  /-- Trouble with files. -/
  | file (fault : FileFault)
  /-- The settings file does not hold settings. -/
  | badSettings
  deriving DecidableEq, Repr

/-- Whether the trouble is with the database or the files, and not a refusal. -/
def Failure.isStorage : Failure → Bool
  | .storage _ | .file _ => true
  | _ => false

/-! ### Wording -/

/-- What is said about trouble with the database. -/
def StorageFault.message : StorageFault → String
  | .negativeSize =>
    "Conversion error from type Integer at index: 3, number too small to fit in target type"
  | .negativeLimit =>
    "Conversion error from type Integer at index: 0, number too small to fit in target type"
  | .unreadableDate fault => "Conversion error from type Text at index: 4, " ++ fault.message
  | .secondActive => "UNIQUE constraint failed: sieve_scripts.owner"
  | .duplicateScript => "UNIQUE constraint failed: sieve_scripts.owner, sieve_scripts.name"
  | .duplicateQuota => "UNIQUE constraint failed: sieve_quotas.quota_key"
  | .dateWithoutMark => "CHECK constraint failed: (active = 1) = (activated_at IS NOT NULL)"
  | .access fault => fault.message

/-- What is said about a failure. -/
def Failure.message : Failure → String
  | .storage fault => "storage error: " ++ fault.message
  | .scriptNotFound name owner => s!"script not found: {name} for {owner}"
  | .noActiveScript owner => s!"script not found: no active script for {owner}"
  | .quotaNotFound key => "quota not found: " ++ key.text
  | .quotaExceeded owner used requested limit =>
    s!"quota exceeded for {owner}: {used} bytes used, {requested} requested, limit {limit}"
  | .nameTaken name owner => s!"script already exists: {name} already exists for {owner}"
  | .clash what => "script already exists: " ++ what
  | .scriptActive name owner => s!"script is active: {name} is the active script of {owner}"
  | .badName role fault => "invalid argument: " ++ fault.message role
  | .notALimit text => s!"invalid argument: '{text}' is not a byte count or 'unlimited'"
  | .scriptTooLarge name => s!"invalid argument: script {name} is too large to store"
  | .limitTooLarge count => s!"invalid argument: {count} bytes is out of range"
  | .file fault => "io error: " ++ fault.message
  | .badSettings => "invalid configuration"

/-! ### What is behind a failure -/

/-- What is behind trouble with the database. -/
def StorageFault.origin : StorageFault → String
  | .negativeSize | .negativeLimit => "number too small to fit in target type"
  | .unreadableDate fault => fault.message
  | .secondActive => "Error code 2067: A UNIQUE constraint failed"
  | .duplicateScript | .duplicateQuota => "Error code 1555: A PRIMARY KEY constraint failed"
  | .dateWithoutMark => "Error code 275: A CHECK constraint failed"
  | .access fault => fault.origin

/-- What is behind a failure, the nearest cause first. -/
def Failure.causes : Failure → List String
  | .storage fault => [fault.message, fault.origin]
  | .file fault => [fault.message]
  | _ => []

/-! ### Names -/

/-- Refuses a text that is not a name. -/
def Name.require (role : Name.Role) (name : String) : Except Failure Unit :=
  (Name.check role name).mapError (.badName role)

/-- A text is accepted exactly if it is a valid name. -/
theorem Name.require_eq_ok_iff {role : Name.Role} {name : String} :
    Name.require role name = .ok () ↔ Name.Valid role name := by
  rw [← Name.check_eq_ok_iff, Name.require]
  match Name.check role name with
  | .ok () => exact ⟨fun _ => rfl, fun _ => rfl⟩
  | .error _ => exact ⟨nofun, nofun⟩

end FilterStore
