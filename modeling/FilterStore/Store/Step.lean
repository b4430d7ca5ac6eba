import FilterStore.Store.Action

/-!
Statements as data, one by one and in batches.

* **Steps.** A `StoreStep` is one statement or a look at the stored rows, and `StoreStep.act` runs
  it.
* **Batches.** `runBatch` runs steps as one `transaction`, with an optional failure of the caller's
  at the end. It tells the answer of each step that ran, the last of which may be a failure, and the
  result of the whole.
* **One by one.** `runEach` runs steps as transactions of their own up to the first failure.
-/

namespace FilterStore

/-- A statement on the database. -/
inductive StoreStep where
  /-- Read the scripts of an owner. -/
  | findAll (owner : String)
  /-- Read the marked script of an owner. -/
  | findActive (owner : String)
  /-- Read a script. -/
  | findScript (owner name : String)
  /-- Store a script. -/
  | upsertScript (script : Script)
  /-- Take a script out. -/
  | deleteScript (owner name : String)
  /-- Read a quota entry. -/
  | findLimit (key : QuotaKey)
  /-- Store a limit. -/
  | upsertLimit (key : QuotaKey) (limit : Limit)
  /-- Take a quota entry out. -/
  | deleteLimit (key : QuotaKey)
  /-- Add a row of scripts as it is. -/
  | insertScript (row : ScriptRow)
  /-- Add a row of quotas as it is. -/
  | insertQuota (row : QuotaRow)
  /-- Look at all stored rows. -/
  | dump
  deriving DecidableEq, Repr

/-- What a statement answers. -/
inductive StoreAnswer where
  /-- Nothing but success. -/
  | done
  /-- Whether something was there. -/
  | found (yes : Bool)
  /-- A script, if there is one. -/
  | script (script : Option Script)
  /-- Scripts in the order of names. -/
  | scripts (scripts : List Script)
  /-- The limit of a key, if there is an entry. -/
  | limit (key : QuotaKey) (limit : Option Limit)
  /-- All stored rows. -/
  | rows (db : Database)
  deriving DecidableEq, Repr

/-- Runs a statement. -/
def StoreStep.act : StoreStep → Action StoreAnswer
  | .findAll owner => .scripts <$> Action.findAll owner
  | .findActive owner => .script <$> Action.findActive owner
  | .findScript owner name => .script <$> Action.findScript owner name
  | .upsertScript script => (fun _ => .done) <$> Action.upsertScript script
  | .deleteScript owner name => .found <$> Action.deleteScript owner name
  | .findLimit key => .limit key <$> Action.findLimit key
  | .upsertLimit key limit => (fun _ => .done) <$> Action.upsertLimit key limit
  | .deleteLimit key => .found <$> Action.deleteLimit key
  | .insertScript row => (fun _ => .done) <$> Action.insertScript row
  | .insertQuota row => (fun _ => .done) <$> Action.insertQuota row
  | .dump => .rows <$> get

/-- The answer of a step: what it found, or why it failed. -/
abbrev StepResult := Except Failure StoreAnswer

/-! ### Batches -/

/-- What a batch tells. -/
structure BatchOutcome where
  /-- The answers of the steps that ran. -/
  answers : List StepResult
  /-- The result of the whole. -/
  result : Except Failure Unit
  /-- The database after it. -/
  database : Database
  deriving Repr

/-- Runs steps inside an open transaction up to the first failure. Behind the last step the
caller's own failure ends the transaction, if there is one. -/
def runSteps (final : Option Failure) :
    List StoreStep → Database → List StepResult × EStateM.Result Failure Database Unit
  | [], db =>
    match final with
    | none => ([], .ok () db)
    | some failure => ([], .error failure db)
  | step :: rest, db =>
    match step.act db with
    | .ok answer db =>
      let (answers, result) := runSteps final rest db
      (.ok answer :: answers, result)
    | .error failure db => ([.error failure], .error failure db)

/-- What steps do to the database, without their answers. -/
def stepsAction (steps : List StoreStep) (final : Option Failure) : Action Unit := fun db =>
  (runSteps final steps db).2

/-- Runs steps in one transaction. The answers are told even if the transaction fails. -/
def runBatch (steps : List StoreStep) (final : Option Failure) (db : Database) : BatchOutcome :=
  let answers := (runSteps final steps db).1
  match transaction (stepsAction steps final) db with
  | .ok () after => ⟨answers, .ok (), after⟩
  | .error failure after => ⟨answers, .error failure, after⟩

/-! ### One by one -/

/-- Runs steps as transactions of their own up to the first failure. -/
def runEach : List StoreStep → Database → List StepResult × Database
  | [], db => ([], db)
  | step :: rest, db =>
    match transaction step.act db with
    | .ok answer db =>
      let (answers, db) := runEach rest db
      (.ok answer :: answers, db)
    | .error failure db => ([.error failure], db)

end FilterStore
