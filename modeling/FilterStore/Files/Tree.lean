import FilterStore.Files.Path
import FilterStore.Store.Database

/-!
A tree of files.

* **Entries.** A `FileTree` holds what stands at each place: a directory, a file, the standard input
  of the program, or the file of a database, of which only the tables matter and whether writes to
  it are logged beside it. The root is always a directory. What is put at a place or removed from it
  changes nothing elsewhere (`lookup?_put`, `lookup?_removeFile`).
* **Following.** `follow` walks a path. Each step starts from a directory; where the last one leads
  there may be nothing. Relative paths start in the directory of the tree.
* **Making.** `makeDirectories` makes the directories of a path that are missing. What it made
  stays even if it fails further on.
-/

namespace FilterStore

open Text

/-- What stands at a place. -/
inductive FileEntry where
  /-- A directory. -/
  | directory
  /-- A file of bytes. -/
  | file (bytes : ByteArray)
  /-- The standard input of the program that opens it. -/
  | input
  /-- The file of a database: its tables, once they are made, and whether writes to it are logged in
  a file beside it. -/
  | database (tables : Option Database) (logged : Bool)

/-- A tree of files, seen from one of its directories. -/
structure FileTree where
  /-- The entries, of which the first of a place counts. -/
  entries : List (Location × FileEntry)
  /-- The directory in which relative paths start. -/
  directory : Location
  /-- The directories in which nothing new can be made. -/
  fixed : List Location

namespace FileTree

/-- The tree without files, seen from its root. -/
def empty : FileTree :=
  ⟨[], [], []⟩

/-- What stands at a place. -/
def lookup? (t : FileTree) (place : Location) : Option FileEntry :=
  if place = [] then some .directory else t.entries.lookup place

/-- The tree with an entry at a place, instead of the one there. -/
def put (t : FileTree) (place : Location) (entry : FileEntry) : FileTree :=
  { t with entries := (place, entry) :: t.entries }

/-- The tree without the file at a place. A directory stays. -/
def removeFile (t : FileTree) (place : Location) : FileTree :=
  match t.lookup? place with
  | some .directory => t
  | _ => { t with entries := t.entries.filter fun e => e.1 ≠ place }

/-- What was put is found, and nothing else changes. -/
theorem lookup?_put (t : FileTree) {place : Location} (h : place ≠ []) (entry : FileEntry)
    (other : Location) :
    (t.put place entry).lookup? other = if other = place then some entry else t.lookup? other := by
  by_cases ho : other = place
  · subst ho
    simp [lookup?, put, h]
  · have hb : (other == place) = false := by simpa using ho
    simp [lookup?, put, List.lookup_cons, hb, ho]

/-- The entries without those of a place hold what they held at other places. -/
theorem lookup_filter_ne (entries : List (Location × FileEntry)) (place other : Location) :
    (entries.filter fun e => e.1 ≠ place).lookup other =
      if other = place then none else entries.lookup other := by
  induction entries with
  | nil => simp
  | cons e rest ih =>
    obtain ⟨p, entry⟩ := e
    by_cases hp : p = place
    · subst hp
      rw [List.filter_cons_of_neg (by simp), ih, List.lookup_cons]
      split
      · rfl
      · next ho => rw [beq_eq_false_iff_ne.2 ho]
    · rw [List.filter_cons_of_pos (by simpa using hp), List.lookup_cons, List.lookup_cons, ih]
      by_cases ho : other = p
      · simp [ho, hp]
      · rw [beq_eq_false_iff_ne.2 ho]

/-- What was removed is gone, and nothing else changes. -/
theorem lookup?_removeFile {t : FileTree} {place : Location}
    (h : t.lookup? place ≠ some .directory) (other : Location) :
    (t.removeFile place).lookup? other = if other = place then none else t.lookup? other := by
  have hplace : place ≠ [] := by
    rintro rfl
    exact h rfl
  rw [removeFile]
  split
  · next found => exact absurd found h
  · by_cases hother : other = []
    · subst hother
      rw [if_neg (Ne.symm hplace)]
      rfl
    · simp only [lookup?, if_neg hother, lookup_filter_ne]

/-! ### Following -/

/-- Follows steps. Each starts from a directory. -/
def follow (t : FileTree) (place : Location) : List PathStep → Except FileFault Location
  | [] => .ok place
  | step :: rest =>
    match t.lookup? place with
    | none => .error .notFound
    | some .directory =>
      match step.lead place with
      | .error fault => .error fault
      | .ok next => t.follow next rest
    | some _ => .error .notADirectory

/-- The directory in which a path starts. -/
def start (t : FileTree) (path : Path) : Location :=
  if path.absolute then [] else t.directory

/-- Where a path leads. -/
def locate (t : FileTree) (path : List UInt8) : Except FileFault Location := do
  let path ← Path.read path
  t.follow (t.start path) (path.steps ++ if path.slashed then [.stay] else [])

/-- What stands at the end of a path. -/
def find (t : FileTree) (path : List UInt8) : Except FileFault FileEntry := do
  match t.lookup? (← t.locate path) with
  | some entry => return entry
  | none => throw .notFound

/-- Whether there is something at the end of a path. -/
def isPresent (t : FileTree) (text : String) : Bool :=
  (t.find (bytes text)).isOk

/-- Whether the standard input is at the end of a path. -/
def isInput (t : FileTree) (text : String) : Bool :=
  match t.find (bytes text) with
  | .ok .input => true
  | _ => false

/-- The bytes that reading a file gives, if `input` is what comes from the standard input. Those of
a database are no text. -/
def readFile (t : FileTree) (input : ByteArray) (text : String) : Except FileFault ByteArray := do
  match ← t.find (bytes text) with
  | .file bytes => return bytes
  | .input => return input
  | .directory => throw .isADirectory
  | .database _ _ => throw .notText

/-! ### Making directories -/

/-- Why no directory can be made where a file is, with further steps behind it: the directories
behind it are tried first, and those behind a missing directory are not yet in the way. -/
def blocked (made : Bool) (rest : List PathStep) : FileFault :=
  if rest = [] ∨ (made ∧ ¬ rest.all (· = .stay)) then .alreadyExists else .notADirectory

/-- Makes the missing directories on the way. A missing directory that is not named by the last
step, but only stayed in, is not made, nor is one in a directory where nothing can be made. -/
def extend (t : FileTree) (place : Location) (made : Bool) :
    List PathStep → Except FileFault Unit × FileTree
  | [] => (.ok (), t)
  | step :: rest =>
    match step.lead place with
    | .error fault => (.error fault, t)
    | .ok next =>
      match t.lookup? next with
      | some .directory => t.extend next made rest
      | some _ => (.error (blocked made rest), t)
      | none =>
        if (rest ≠ [] ∧ rest.all (· = .stay)) ∨ next.tail ∈ t.fixed then (.error .notFound, t)
        else (t.put next .directory).extend next true rest

/-- Makes the missing directories of a path. The empty text names the directory itself. -/
def makeDirectories (t : FileTree) (text : String) : Except FileFault Unit × FileTree :=
  if text = "" then (.ok (), t)
  else
    match Path.read (bytes text) with
    | .error fault => (.error fault, t)
    | .ok path => t.extend (t.start path) false path.steps

end FileTree

end FilterStore
