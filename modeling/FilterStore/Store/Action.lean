import FilterStore.Store.Database

/-!
Work inside a transaction.

* **Actions.** An `Action` runs statements on the database one after another, each on what the
  earlier ones left. If it fails, what was written before stays written: a statement that fails
  undoes only itself.
* **Transactions.** `transaction` keeps the writes of an action that succeeds and takes back all
  writes of one that fails.
-/

namespace FilterStore

/-- Statements run one after another on the database. -/
abbrev Action := EStateM Failure Database

namespace Action

/-- Reads from the database. -/
def query {α : Type} (read : Database → Except StorageFault α) : Action α := fun db =>
  match read db with
  | .ok a => .ok a db
  | .error fault => .error (.storage fault) db

/-- Changes the database, or fails and leaves it. -/
def change (write : Database → Except Failure Database) : Action Unit := fun db =>
  match write db with
  | .ok after => .ok () after
  | .error failure => .error failure db

/-! ### Scripts -/

/-- Reads a script. -/
def findScript (owner name : String) : Action (Option Script) :=
  query (Database.findScript owner name)

/-- Reads the marked script of an owner. -/
def findActive (owner : String) : Action (Option Script) :=
  query (Database.findActive owner)

/-- Reads the scripts of an owner. -/
def findAll (owner : String) : Action (List Script) :=
  query (Database.findAll owner)

/-- Stores a script. -/
def upsertScript (script : Script) : Action Unit :=
  change (Database.upsertScript script)

/-- Takes a script out and tells whether it was there. -/
def deleteScript (owner name : String) : Action Bool := do
  let found := ((← get).scriptRow? owner name).isSome
  modify (Database.deleteScript owner name)
  return found

/-! ### Quotas -/

/-- Reads a quota entry. -/
def findLimit (key : QuotaKey) : Action (Option Limit) :=
  query (Database.findLimit key)

/-- Stores a limit. -/
def upsertLimit (key : QuotaKey) (limit : Limit) : Action Unit :=
  change (Database.upsertLimit key limit)

/-- Takes a quota entry out and tells whether it was there. -/
def deleteLimit (key : QuotaKey) : Action Bool := do
  let found := ((← get).quotaRow? key).isSome
  modify (Database.deleteLimit key)
  return found

/-! ### Rows as they are -/

/-- Adds a row to the table of scripts. -/
def insertScript (row : ScriptRow) : Action Unit :=
  change fun db => (db.insertScript row).mapError .storage

/-- Adds a row to the table of quotas. -/
def insertQuota (row : QuotaRow) : Action Unit :=
  change fun db => (db.insertQuota row).mapError .storage

end Action

/-! ### Transactions -/

/-- Runs an action and takes all its writes back if it fails. -/
def transaction {α : Type} (act : Action α) : Action α := fun db =>
  match act db with
  | .ok a after => .ok a after
  | .error failure _ => .error failure db

end FilterStore
