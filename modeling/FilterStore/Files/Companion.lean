import FilterStore.Files.Tree
import FilterStore.Store.Locator

/-!
The files beside a database.

* **Journal.** While a database is written without a log, a journal notes what was there before. A
  journal that was left behind, and is not blank, means that a write has to be undone
  (`isInterrupted`, `undo`).
* **Log.** Writes that are logged stand in a file of their own until the database is closed. A log
  beside a database without pages is of no use and is removed (`findLog`, `openLog`).
* **Index.** A log has an index, in a file for all to see unless nobody else is let in. If the index
  cannot be written, the database can be read but no write can be started (`openIndex`).
* **Lock.** A directory stands for a lock where files cannot be locked themselves.

An empty file beside a database counts as none (`isFilled`). What has been done before a fault stays
done.
-/

namespace FilterStore

open Text

namespace FileTree

/-- Work on files that may stop at a fault. What it has done by then stays. -/
abbrev Work := EStateM AccessFault FileTree

/-- What stands at a place. -/
def entryAt (place : Location) : Work (Option FileEntry) :=
  return (← get).lookup? place

/-- Puts an entry at a place, instead of the one there. -/
def putAt (place : Location) (entry : FileEntry) : Work Unit :=
  modify (·.put place entry)

/-- Removes the file at a place. A directory stays. -/
def removeAt (place : Location) : Work Unit :=
  modify (·.removeFile place)

/-- Whether something stands at a place that is not an empty file. -/
def isFilled (t : FileTree) (place : Location) : Bool :=
  match t.lookup? place with
  | none => false
  | some (.file bytes) => bytes.size ≠ 0
  | some _ => true

/-! ### Journals -/

/-- The place of the journal of a database. -/
def journalOf (place : Location) : Location :=
  place.beside "-journal"

/-- Whether a write to the database was left undone. Beside a database without pages there is
nothing to undo, and the journal is removed if the database can be locked for it. -/
def isInterrupted (l : Locator) (place : Location) (blank : Bool) : Work Bool := do
  let journal := journalOf place
  if !(← get).isFilled journal then return false
  if blank then
    if l.reserves then removeAt journal
    return false
  match ← entryAt journal with
  | some .directory => throw .unreadable
  | some (.file bytes) => return bytes[0]? ≠ some 0
  | _ => return true

/-- The mark by which a journal begins. -/
def journalMark : List UInt8 :=
  [0xd9, 0xd5, 0x05, 0xf9, 0x20, 0xa1, 0x63, 0xd7]

/-- The number of which the bytes are the digits, the highest one first. -/
def numberOf (bs : List UInt8) : Nat :=
  bs.foldl (fun n b => 256 * n + b.toNat) 0

/-- Whether a number is a power of two from a least one up to 65536. -/
def isBlockSize (least n : Nat) : Bool :=
  least ≤ n && n ≤ 65536 && 1 <<< n.log2 = n

/-- Whether a journal notes that the database had no pages. Its first block holds the mark and
numbers of four bytes: behind two others those of pages, of the bytes of a block and of the bytes of
a page, where zero stands for the usual one. -/
def notesNoPages (blockSize : Nat) (journal : List UInt8) : Bool :=
  let number (i : Nat) := numberOf ((journal.drop i).take 4)
  blockSize ≤ journal.length && journalMark.isPrefixOf journal && number 16 = 0 &&
    isBlockSize 32 (number 20) && (number 24 = 0 || isBlockSize 512 (number 24))

/-- Undoes the write that the journal of a database is about, and removes the journal. -/
def undo (l : Locator) (place : Location) : Work Unit := do
  if l.readOnly then throw .interrupted
  let journal := journalOf place
  if let some (.file bytes) ← entryAt journal then
    if notesNoPages l.blockSize bytes.data.toList then putAt place (.file .empty)
  removeAt journal

/-- Starts a write without a log: makes the journal, which is gone when the write is done. -/
def passJournal (place : Location) : Work Unit := do
  let journal := journalOf place
  if journal.head?.any (PathStep.longestName < ·.length) then throw .cannotOpenBeside
  match ← entryAt journal with
  | some .directory => throw .cannotOpenBeside
  | _ => removeAt journal

/-! ### Logs -/

/-- The place of the log of a database. -/
def logOf (place : Location) : Location :=
  place.beside "-wal"

/-- The bytes by which a log with writes begins. They are no text. -/
def logMark : ByteArray :=
  ⟨#[0x37, 0x7f, 0x06, 0x82]⟩

/-- Finds out whether there is a log, and removes it if the database has no pages. -/
def findLog (l : Locator) (place : Location) (blank : Bool) : Work Bool := do
  let log := logOf place
  if !(← get).isFilled log then return false
  match blank, ← entryAt log with
  | true, some .directory => throw .unremovable
  | true, _ =>
    removeAt log
    return false
  | false, some .directory => throw .cannotOpenBeside
  | false, _ => if l.logs then return true else throw .cannotOpenBeside

/-- The place of the index of the log of a database. -/
def indexOf (place : Location) : Location :=
  place.beside "-shm"

/-- The bytes by which the index of a log begins. They are no text. -/
def indexMark : ByteArray :=
  ⟨#[0x18, 0xe2, 0x2d, 0x00]⟩

/-- Opens the index of a log, and tells whether it cannot be written. -/
def openIndex (l : Locator) (place : Location) : Work Bool := do
  let index := indexOf place
  if !l.sharesIndex then return false
  match ← entryAt index, l.fixedIndex with
  | some .directory, _ | some _, true => return true
  | none, true => throw .cannotOpenBeside
  | _, false =>
    putAt index (.file indexMark)
    return false

/-- Opens the log of a database and its index, making them where they are missing, and tells whether
the index cannot be written. -/
def openLog (l : Locator) (place : Location) : Work Bool := do
  if (← entryAt (logOf place)).isNone then putAt (logOf place) (.file .empty)
  openIndex l place

/-- Removes the log of a database and its index. -/
def removeLog (l : Locator) (place : Location) : Work Unit := do
  removeAt (logOf place)
  if l.sharesIndex then removeAt (indexOf place)

/-! ### Locks -/

/-- The place of the directory that stands for a lock on a database. -/
def lockOf (place : Location) : Location :=
  place.beside ".lock"

/-- Fails if somebody else has locked the database. -/
def checkLock (l : Locator) (place : Location) : Work Unit := do
  if l.layer = .lockDirectory ∧ ¬ l.unlocked ∧ (← entryAt (lockOf place)).isSome then throw .locked

end FileTree

end FilterStore
