import FilterStore.Files.Companion

/-!
Databases in a tree of files.

* **Finding.** The path of a database is followed by its names only: two points take the last name
  back, whether or not a directory is there, but a file cannot have anything below it. The path from
  the root has to be short enough for the names of the files beside the database (`resolve`).
* **Opening.** `connect` opens the file and makes it where there is none. Its place is settled here:
  what happens to the files on the way there no longer matters to the open database (`Handle`).
* **Loading.** `load` reads the tables: it first looks at the files beside the database (`examine`),
  then begins to log writes (`keepLog`), and makes the tables where there are none (`setUp`). A file
  with at most one byte counts as a database without pages. A database that was logged once is so
  from then on.
* **Writing.** Along with the tables `load` tells what may be done to them (`Writing`).
* **Closing.** `close` writes the tables and takes the log away; without the right to write all
  files stay as they are (`close_eq_of_ne_allowed`).
-/

namespace FilterStore

open Text

namespace FileTree

/-! ### Finding -/

/-- The number of bytes from which on a path is too long to be followed further. -/
def reachBound : Nat := 512

/-- The number of bytes kept free behind the path of a database, for the endings of other names. -/
def endingRoom : Nat := 8

/-- Where a step of the path of a database leads. -/
def reach (t : FileTree) (place : Location) : PathStep → Option Location
  | .stay => some place
  | .up => some place.tail
  | .into name =>
    let next : Location := name :: place
    if reachBound ≤ next.width then none
    else
      match t.follow [] (next.reverse.map .into) with
      | .ok _ | .error .notFound => some next
      | .error _ => none

/-- The place of the file of a database. -/
def resolve (t : FileTree) (path : List UInt8) : Option Location := do
  let path := Path.ofBytes path
  let place ← path.steps.foldlM t.reach (t.start path)
  if place = [] ∨ reachBound < place.width + endingRoom then none else some place

/-! ### Opening -/

/-- Opens the file of a database. A directory can be opened to be read, but then is no file. -/
def openFile (l : Locator) (place : Location) : Work Unit := do
  match ← entryAt place, l.access with
  | some .directory, .read => throw .unreadable
  | some .directory, _ | some .input, _ => throw (.cannotOpen l.text)
  | some _, _ => return ()
  | none, .create =>
    match ← entryAt place.tail, (← get).fixed.contains place.tail with
    | some .directory, false => putAt place (.file .empty)
    | _, _ => throw (.cannotOpen l.text)
  | none, _ => throw (.cannotOpen l.text)

/-- A database that was opened. -/
structure Handle where
  /-- How it is to be used. -/
  locator : Locator
  /-- The place of its file. Without one the database lives in memory. -/
  place? : Option Location

/-- Opens a database. -/
def connect (l : Locator) : Work Handle := do
  let some path := l.file? | return ⟨l, none⟩
  let t ← get
  let some place := t.resolve path | throw (.cannotOpen l.text)
  if let some path := l.example? then
    unless (t.find path).isOk do throw .missingExample
  openFile l place
  return ⟨l, some place⟩

/-! ### Loading -/

/-- What is known of an open database. -/
structure Opened where
  /-- Its tables, if they are made. -/
  tables? : Option Database
  /-- Whether its log is open. -/
  logged : Bool
  /-- Whether the index of the log cannot be written. -/
  indexFixed : Bool

/-- Whether an entry is a file that counts as a database without pages. -/
def isBlank : Option FileEntry → Bool
  | some (.file bytes) => bytes.size ≤ 1
  | _ => false

/-- Looks at a database that is taken as one that never changes. -/
def examineFrozen (place : Location) : Work Opened := do
  match ← entryAt place with
  | some (.database tables? _) => return ⟨tables?, false, false⟩
  | entry => if isBlank entry then return ⟨none, false, false⟩ else throw .notADatabase

/-- Undoes a write to a database that was left undone. -/
def recover (l : Locator) (place : Location) : Work Unit := do
  if ← isInterrupted l place (isBlank (← entryAt place)) then undo l place

/-- Looks at the file of a database. By then it is known whether it is blank, whether a log was found
beside it, and whether the index of this log cannot be written. -/
def inspect (l : Locator) (place : Location) (blank found fixed : Bool) : Work Opened := do
  match ← entryAt place with
  | some (.database tables? false) => return ⟨tables?, found, fixed⟩
  | some (.database tables? true) =>
    if l.logs then return ⟨tables?, true, ← openLog l place⟩ else throw .cannotOpenBeside
  | _ =>
    if blank then return ⟨none, false, false⟩
    if found ∧ ¬ fixed ∧ ¬ l.readOnly then removeLog l place
    throw .notADatabase

/-- Looks at a database and the files beside it. -/
def examine (l : Locator) (place : Location) : Work Opened := do
  checkLock l place
  recover l place
  let blank := isBlank (← entryAt place)
  let found ← findLog l place blank
  let fixed ← if found then openIndex l place else pure false
  inspect l place blank found fixed

/-- Begins to log the writes to a database, if they can be logged and are not. -/
def keepLog (l : Locator) (place : Location) (o : Opened) : Work Opened := do
  if o.logged || !l.logs then return o
  if l.readOnly then throw .readOnly
  passJournal place
  putAt place (.database o.tables? true)
  return { o with logged := true, indexFixed := ← openLog l place }

/-- The tables of a database, which are made where they are missing. -/
def setUp (l : Locator) (place : Location) (o : Opened) : Work Database := do
  if let some db := o.tables? then return db
  if l.readOnly || o.indexFixed then throw .readOnly
  if o.logged then putAt (logOf place) (.file logMark) else passJournal place
  putAt place (.database (some .empty) o.logged)
  return .empty

/-- The tables of a database of which something is known, and what may be done to them. -/
def provide (l : Locator) (place : Location) (o : Opened) : Work (Database × Writing) := do
  let o ← keepLog l place o
  let db ← setUp l place o
  return (db, if l.readOnly then .refused else if o.indexFixed then .sealed else .allowed)

/-- Reads the tables of an open database. -/
def load (h : Handle) : Work (Database × Writing) := do
  let l := h.locator
  let some place := h.place?
    | if l.readOnly then throw .readOnly else return (.empty, .allowed)
  let o ← if l.frozen then examineFrozen place else examine l place
  provide l place o

/-! ### Closing -/

/-- Writes the tables of an open database and takes its log away. -/
def save (h : Handle) (db : Database) : Work Unit := do
  let some place := h.place? | return ()
  if let some (.database tables? logged) ← entryAt place then
    putAt place (.database (some db) logged)
    if h.locator.logs then removeLog h.locator place
    else if tables? ≠ some db then passJournal place

/-- Closes an open database. If it may be written it is left with the given tables. -/
def close (h : Handle) (db : Database) (writing : Writing) : Work Unit :=
  if writing = .allowed then save h db else pure ()

/-- A database that may not be written is left as it is. -/
theorem close_eq_of_ne_allowed {writing : Writing} (hw : writing ≠ .allowed) (h : Handle)
    (db : Database) (t : FileTree) : close h db writing t = .ok () t := by
  rw [close, if_neg hw]
  rfl

end FileTree

end FilterStore
