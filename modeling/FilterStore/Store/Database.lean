import FilterStore.Store.Row

/-!
The database: a table of scripts and a table of quotas.

* **Rules.** `Database.Schema` is what the tables guarantee: rows are ordered by keys that are
  unique, an owner has at most one marked script, and a script is marked exactly if it has a date.
* **Queries.** `scriptRow?`, `activeRow?`, `scriptRows` and `quotaRow?` find rows; `findScript`,
  `findActive`, `findAll` and `findLimit` read what they find. The first row that cannot be read
  decides, in the order of names.
* **Statements.** `insertScript` and `insertQuota` add rows as they are, `upsertScript` and
  `upsertLimit` add or replace, `deleteScript` and `deleteLimit` take out. A statement that would
  break a rule changes nothing and names the rule: date and mark before uniqueness, and a second
  marked script before a second row of the same key.
-/

namespace FilterStore

/-- The two tables. -/
structure Database where
  /-- The scripts. -/
  scripts : List ScriptRow
  /-- The quota entries. -/
  quotas : List QuotaRow
  deriving DecidableEq, Repr

namespace Database

/-- The database without rows. -/
def empty : Database :=
  ⟨[], []⟩

/-- What the tables guarantee. -/
structure Schema (db : Database) : Prop where
  /-- Scripts are ordered by owner and name, and no two share both. -/
  scripts_sorted : Table.Sorted db.scripts
  /-- Quota entries are ordered by key, and no two share it. -/
  quotas_sorted : Table.Sorted db.quotas
  /-- A script is marked exactly if it has a date. -/
  coherent : ∀ r ∈ db.scripts, r.Coherent
  /-- An owner has at most one marked script. -/
  one_marked : ∀ r ∈ db.scripts, ∀ s ∈ db.scripts,
    r.Marked → s.Marked → r.owner = s.owner → r.name = s.name

theorem schema_empty : Schema empty where
  scripts_sorted := Table.sorted_nil
  quotas_sorted := Table.sorted_nil
  coherent := fun _ h => nomatch h
  one_marked := fun _ h => nomatch h

/-! ### Queries -/

/-- The row of a script. -/
def scriptRow? (db : Database) (owner name : String) : Option ScriptRow :=
  Table.find? ⟨owner, name⟩ db.scripts

/-- The marked row of an owner. -/
def activeRow? (db : Database) (owner : String) : Option ScriptRow :=
  db.scripts.find? fun r => r.owner = owner ∧ r.Marked

/-- The rows of an owner, in the order of names. -/
def scriptRows (db : Database) (owner : String) : List ScriptRow :=
  db.scripts.filter fun r => r.owner = owner

/-- The quota row of a storage key. -/
def quotaRow? (db : Database) (key : QuotaKey) : Option QuotaRow :=
  Table.find? key.storageKey db.quotas

/-- Reads a script. -/
def findScript (owner name : String) (db : Database) : Except StorageFault (Option Script) :=
  (db.scriptRow? owner name).mapM ScriptRow.script

/-- Reads the marked script of an owner. -/
def findActive (owner : String) (db : Database) : Except StorageFault (Option Script) :=
  (db.activeRow? owner).mapM ScriptRow.script

/-- Reads the scripts of an owner, in the order of names. -/
def findAll (owner : String) (db : Database) : Except StorageFault (List Script) :=
  (db.scriptRows owner).mapM ScriptRow.script

/-- Reads a quota entry. -/
def findLimit (key : QuotaKey) (db : Database) : Except StorageFault (Option Limit) :=
  (db.quotaRow? key).mapM QuotaRow.meaning

/-! ### Statements -/

/-- Adds a row to the table of scripts. -/
def insertScript (row : ScriptRow) (db : Database) : Except StorageFault Database :=
  if ¬ row.Coherent then .error .dateWithoutMark
  else if row.Marked ∧ (db.activeRow? row.owner).isSome then .error .secondActive
  else if (db.scriptRow? row.owner row.name).isSome then .error .duplicateScript
  else .ok { db with scripts := Table.put row db.scripts }

/-- Adds a row to the table of quotas. -/
def insertQuota (row : QuotaRow) (db : Database) : Except StorageFault Database :=
  if (Table.find? row.key db.quotas).isSome then .error .duplicateQuota
  else .ok { db with quotas := Table.put row db.quotas }

/-- Whether another script of the owner is marked. -/
def otherMarked (db : Database) (owner name : String) : Bool :=
  db.scripts.any fun r => r.owner = owner ∧ r.Marked ∧ r.name ≠ name

/-- Stores a script, instead of the row of its owner and name if there is one. -/
def upsertScript (script : Script) (db : Database) : Except Failure Database := do
  let row ← script.row
  if ¬ row.Coherent then throw (.storage .dateWithoutMark)
  else if row.Marked ∧ db.otherMarked row.owner row.name then throw (.storage .secondActive)
  else return { db with scripts := Table.put row db.scripts }

/-- Stores a limit, instead of the entry of its key if there is one. -/
def upsertLimit (key : QuotaKey) (limit : Limit) (db : Database) : Except Failure Database := do
  let row ← limit.row key
  return { db with quotas := Table.put row db.quotas }

/-- Takes a script out. -/
def deleteScript (owner name : String) (db : Database) : Database :=
  { db with scripts := Table.erase ⟨owner, name⟩ db.scripts }

/-- Takes a quota entry out. -/
def deleteLimit (key : QuotaKey) (db : Database) : Database :=
  { db with quotas := Table.erase key.storageKey db.quotas }

end Database

end FilterStore
