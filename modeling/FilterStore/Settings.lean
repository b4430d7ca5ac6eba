import FilterStore.Files.Content
import FilterStore.Toml.Document

/-!
The settings of the repository.

* **Settings.** `Settings` holds the data directory, and how long a write waits for another
  connection, in milliseconds. `databasePath` is the place of the database file.
* **Files.** `Settings.ofText` reads a settings file. Names it does not define keep their defaults,
  and other names are passed over.
* **Loading.** `Settings.load` reads the file that was asked for, if any. A data directory that was
  given besides wins over the file, but not over a fault in it.
-/

namespace FilterStore

/-- The settings of the repository. -/
structure Settings where
  /-- The directory of the database. -/
  dataDir : String
  /-- How many milliseconds a write waits for another connection. -/
  busyTimeout : UInt64
  deriving DecidableEq, Repr

namespace Settings

/-- The settings without a file. -/
def default : Settings :=
  ⟨"./data", 5000⟩

/-- The name of the database file. -/
def databaseName : String :=
  "sievekeeper.db"

/-- A path with a name behind it. -/
def joinPath (directory name : String) : String :=
  if directory = "" ∨ directory.toList.getLast? = some '/' then directory ++ name
  else directory ++ "/" ++ name

/-- The path of the database file. -/
def databasePath (s : Settings) : String :=
  joinPath s.dataDir databaseName

/-! ### Files -/

/-- The data directory of a file, which must be a text. -/
def dataDirOf? (entries : List Toml.Entry) : Option String :=
  match Toml.find? "data_dir" entries with
  | none => some default.dataDir
  | some (.value (.text s)) => some s
  | some _ => none

/-- The waiting time of a file, which must be an integer that is not negative. -/
def busyTimeoutOf? (entries : List Toml.Entry) : Option UInt64 :=
  match Toml.find? "busy_timeout_ms" entries with
  | none => some default.busyTimeout
  | some (.value (.integer n)) => if 0 ≤ n then some (.ofNat n.toNat) else none
  | some _ => none

/-- The settings of a file. -/
def ofText (text : String) : Except Failure Settings :=
  let settings := do
    let entries ← Toml.document? text
    return ⟨← dataDirOf? entries, ← busyTimeoutOf? entries⟩
  match settings with
  | some s => .ok s
  | none => .error .badSettings

/-! ### Loading -/

/-- The settings of a file whose bytes were read, or could not be. -/
def ofFile (bytes : Except FileFault ByteArray) : Except Failure Settings := do
  ofText (← (bytes >>= textOfBytes).mapError .file)

/-- The settings with another data directory, if one is given. -/
def withDataDir (s : Settings) : Option String → Settings
  | none => s
  | some dir => { s with dataDir := dir }

/-- The settings of a file, if one was asked for, with another data directory, if one is given. -/
def load (file : Option (Except FileFault ByteArray)) (dataDir : Option String) :
    Except Failure Settings := do
  let s ← match file with
    | none => pure default
    | some bytes => ofFile bytes
  return s.withDataDir dataDir

end Settings

end FilterStore
