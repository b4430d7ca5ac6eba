import FilterStore.Json.Codec
import FilterStore.Store.Database

/-!
The database as text, so that it can be kept in a file.

Each row is a line, which is a JSON array of its columns: first the scripts with six columns, then
the quotas with two. `Database.ofArchive?` adds the rows one after another under the rules of the
tables, so what it reads satisfies them.
-/

namespace FilterStore

open Json

namespace Json

/-- A signed number as a value. -/
def Scalar.ofSigned (i : Int64) : Scalar :=
  let digits := Numeral.decimal i.toInt.natAbs
  .number (if i < 0 then '-' :: digits else digits)

/-- A signed number, if the value is one and is written with digits only. -/
def Scalar.signed? : Scalar → Option Int64
  | .number ('-' :: digits) => if isDigits digits then some (.ofInt (-Numeral.value digits)) else none
  | .number digits => if isDigits digits then some (.ofInt (Numeral.value digits)) else none
  | _ => none

/-- A value that may be missing. -/
def Scalar.orNull {α : Type} (f : α → Scalar) : Option α → Scalar
  | none => .null
  | some a => f a

/-- Reads a value that may be missing. -/
def Scalar.orNull? {α : Type} (f : Scalar → Option α) : Scalar → Option (Option α)
  | .null => some none
  | v => some <$> f v

/-- The tokens of an array. -/
def arrayTokens (elements : List Scalar) : List Token :=
  .arrayStart :: ((elements.map Scalar.token).intersperse .comma) ++ [.arrayEnd]

end Json

/-- The columns of a script. -/
def ScriptRow.columns (r : ScriptRow) : List Scalar :=
  [.text r.owner, .text r.name, .text r.content, .ofSigned r.size, .ofSigned r.active,
    .orNull .text r.activatedAt]

/-- The columns of a quota entry. -/
def QuotaRow.columns (r : QuotaRow) : List Scalar :=
  [.text r.key, .orNull .ofSigned r.limit]

namespace Database

/-- The database as text. -/
def archive (db : Database) : String :=
  let rows := db.scripts.map ScriptRow.columns ++ db.quotas.map QuotaRow.columns
  String.join (rows.map fun columns => render (arrayTokens columns) ++ "\n")

/-- The database with one more row. -/
def addColumns? (db : Database) : List Scalar → Option Database
  | [owner, name, content, size, active, activatedAt] => do
    let row : ScriptRow := ⟨← owner.text?, ← name.text?, ← content.text?, ← size.signed?,
      ← active.signed?, ← activatedAt.orNull? Scalar.text?⟩
    (db.insertScript row).toOption
  | [key, limit] => do
    let row : QuotaRow := ⟨← key.text?, ← limit.orNull? Scalar.signed?⟩
    (db.insertQuota row).toOption
  | _ => none

/-- The database with the row of one more line. -/
def addLine? (db : Database) (line : String) : Option Database :=
  match read? line with
  | some (.array columns) => db.addColumns? columns
  | _ => none

/-- Reads a database. -/
def ofArchive? (text : String) : Option Database :=
  ((text.splitOn "\n").filter (· ≠ "")).foldlM addLine? empty

end Database

end FilterStore
