import FilterStore.Files.Fault
import FilterStore.Text.Bytes

/-!
Where a database is, and how it is to be used.

* **Locators.** A `Locator` says which file holds the database, if any, what may be done with it and
  how its file is reached. A database without a file lives in memory and is gone at the end. Once
  the database is open it turns out what may be done to its tables (`Writing`).
* **Plain paths.** A text that does not begin with `file:` is the path of a file, which may be made,
  read and written.
* **URIs.** Behind `file:` there may be an empty or local host, then the path, parameters behind a
  question mark, and a fragment behind a number sign, which counts for nothing. Path and parameters
  are decoded (`Text.percentDecode`). The parameter `mode` says what may be done, and each one may
  only narrow what the one before allows; `vfs` names a way to reach files, of which the last
  counts. Modes are checked in order, and before `vfs`. Of each other parameter the first counts:
  `immutable`, `nolock`, `readonly_shm` and `psow` are switches (`switched`), and `modeof` names a
  file.
* **Consequences.** A log can only be kept where the file can be locked and may change
  (`Locator.logs`).
-/

namespace FilterStore

open Text

/-- What may be done with a file. -/
inductive Access where
  /-- It may be read. -/
  | read
  /-- It may be read and written. -/
  | write
  /-- It may be made, read and written. -/
  | create
  deriving DecidableEq, Repr

/-- What may be done to the tables of an open database. -/
inductive Writing where
  /-- They may be written. -/
  | allowed
  /-- They may be read, but the first write fails. -/
  | refused
  /-- Nothing may be begun that could write. -/
  | sealed
  deriving DecidableEq, Repr

/-- A way to reach files. -/
inductive Layer where
  /-- Files are locked while they are used. -/
  | locking
  /-- Files are locked, and nobody else is let in before the end. -/
  | exclusive
  /-- Files are not locked. -/
  | lockless
  /-- A directory beside a file stands for a lock. -/
  | lockDirectory
  /-- There are no files. -/
  | memory
  deriving DecidableEq, Repr

/-- The way to reach files of a name. -/
def Layer.ofName? (name : List UInt8) : Option Layer :=
  if name = bytes "unix" then some .locking
  else if name = bytes "unix-excl" then some .exclusive
  else if name = bytes "unix-none" then some .lockless
  else if name = bytes "unix-dotfile" then some .lockDirectory
  else if name = bytes "memdb" then some .memory
  else none

/-- Where a database is, and how it is to be used. -/
structure Locator where
  /-- The text that says so. -/
  text : String
  /-- The path of the file. Without one the database lives in memory. -/
  file? : Option (List UInt8) := none
  /-- What may be done with the file. -/
  access : Access := .create
  /-- How the file is reached. -/
  layer : Layer := .locking
  /-- Whether the file is taken as one that never changes. -/
  frozen : Bool := false
  /-- Whether the file is used without locks in spite of the layer. -/
  unlocked : Bool := false
  /-- Whether the index of a log may only be read. -/
  fixedIndex : Bool := false
  /-- The number of bytes that a disk writes at once. -/
  blockSize : Nat := 512
  /-- The path of the file whose permissions a new one is given. -/
  example? : Option (List UInt8) := none
  deriving DecidableEq, Repr

namespace Locator

/-- Whether the database may not be written. -/
def readOnly (l : Locator) : Bool :=
  l.access = .read || l.frozen

/-- Whether writes are logged in a file beside the database. -/
def logs (l : Locator) : Bool :=
  !l.frozen && !l.unlocked && (l.layer = .locking || l.layer = .exclusive)

/-- Whether the index of a log is a file, for others to see. Who lets nobody else in and may write
keeps it in memory. -/
def sharesIndex (l : Locator) : Bool :=
  l.layer ≠ .exclusive || l.access = .read

/-- Whether the database can be locked for a write. A lock on the file itself needs the right to
write it. -/
def reserves (l : Locator) : Bool :=
  l.unlocked || l.layer = .lockless || l.layer = .lockDirectory || l.access ≠ .read

/-- Whether a path stands for a database in memory. -/
def isMemory (path : List UInt8) : Bool :=
  path = [] || path = bytes ":memory:"

/-- The locator of a plain path. -/
def ofPath (path : String) : Locator :=
  { text := path, file? := if isMemory (bytes path) then none else some (bytes path) }

/-! ### Parameters -/

/-- A parameter of a URI: its name and its value. -/
abbrev Parameter := List UInt8 × List UInt8

/-- A parameter between ampersands, unless its name is empty. -/
def parameter? (piece : List UInt8) : Option Parameter :=
  let (name, value) := piece.span (· ≠ ascii '=')
  let name := percentDecode name
  if name = [] then none else some (name, percentDecode (value.drop 1))

/-- The parameters of a URI. -/
def parameters (query : List UInt8) : List Parameter :=
  (pieces (ascii '&') query).filterMap parameter?

/-! ### Switches -/

/-- The value of hexadecimal digits at the beginning of a sequence, if there is one. -/
def hexNumber? (bs : List UInt8) : Option Nat :=
  match ((bs.map hexValue?).takeWhile Option.isSome).filterMap id with
  | [] => none
  | digits => some (digits.foldl (fun n digit => 16 * n + digit.toNat) 0)

/-- The value of decimal digits at the beginning of a sequence, if there is one. -/
def decimalNumber? (bs : List UInt8) : Option Nat :=
  match (bs.map fun b => Char.ofUInt8 b).takeWhile Char.isDigit with
  | [] => none
  | digits => some (Nat.ofDigitChars 10 digits 0)

/-- The number at the beginning of a value. Behind `0x` it is hexadecimal. -/
def leadingNumber? (value : List UInt8) : Option Nat :=
  let marked := value.take 2 = bytes "0x" ∨ value.take 2 = bytes "0X"
  (if marked then hexNumber? (value.drop 2) else none).or (decimalNumber? value)

/-- Whether a value switches something on: a number of 31 bits that is not a multiple of 256, or one
of the words for it, in any case of the letters. Other words say nothing. -/
def switch? (value : List UInt8) : Option Bool :=
  let word := value.map fun b => (Char.ofUInt8 b).toLower
  match leadingNumber? value with
  | some n => some (n ≤ 0x7fffffff && n % 256 ≠ 0)
  | none =>
    if word ∈ ["on", "yes", "true"].map String.toList then some true
    else if word ∈ ["off", "no", "false"].map String.toList then some false
    else none

/-- Whether the first parameter of a name switches something on. -/
def switched (name : String) (usual : Bool) (parameters : List Parameter) : Bool :=
  ((parameters.lookup (bytes name)).bind switch?).getD usual

/-! ### Modes -/

/-- What a URI asks for. -/
inductive Mode where
  /-- A file, for some use. -/
  | file (access : Access)
  /-- No file. -/
  | memory
  deriving DecidableEq, Repr

namespace Mode

/-- The mode of a name. -/
def ofName? (name : List UInt8) : Option Mode :=
  if name = bytes "ro" then some (.file .read)
  else if name = bytes "rw" then some (.file .write)
  else if name = bytes "rwc" then some (.file .create)
  else if name = bytes "memory" then some .memory
  else none

/-- How much a mode leaves open to the modes behind it. -/
def rank : Mode → Nat
  | .file .read => 1
  | .file .write => 2
  | .file .create => 3
  | .memory => 4

/-- What may be done in a mode. -/
def access : Mode → Access
  | .file access => access
  | .memory => .create

end Mode

/-- What the parameters have chosen. -/
structure Choice where
  /-- The mode. -/
  mode : Mode
  /-- The name of the way to reach files. -/
  layer : List UInt8
  deriving DecidableEq, Repr

namespace Choice

/-- The choice without parameters. -/
def default : Choice :=
  ⟨.file .create, bytes "unix"⟩

/-- The choice with one more parameter. Memory may be chosen after every mode. -/
def add (c : Choice) : Parameter → Except LocatorFault Choice
  | (name, value) =>
    if name = bytes "vfs" then .ok { c with layer := value }
    else if name = bytes "cache" then
      if value = bytes "shared" ∨ value = bytes "private" then .ok c
      else .error (.unknownMode "cache" (readable value))
    else if name = bytes "mode" then
      match Mode.ofName? value with
      | none => .error (.unknownMode "access" (readable value))
      | some mode =>
        if mode ≠ .memory ∧ c.mode.rank < mode.rank then .error (.excessMode (readable value))
        else .ok { c with mode := mode }
    else .ok c

end Choice

/-! ### URIs -/

/-- What is behind the host of a URI, which must be this one. -/
def behindHost (uri : List UInt8) : Except LocatorFault (List UInt8) :=
  match (bytes "//").isPrefixOf uri, uri.drop 2 with
  | true, rest =>
    let host := rest.takeWhile (· ≠ ascii '/')
    if host = [] ∨ host = bytes "localhost" then .ok (rest.dropWhile (· ≠ ascii '/'))
    else .error (.foreignHost (readable host))
  | false, _ => .ok uri

/-- The greatest number of bytes of a name for a database in memory. -/
def longestMemoryName : Nat := 1016

/-- The locator of a path, of parameters and of what they have chosen. -/
def ofParts (text : String) (path : List UInt8) (parameters : List Parameter) (mode : Mode)
    (layer : Layer) : Except AccessFault Locator :=
  if isMemory path ∨ mode = .memory then .ok { text, access := mode.access }
  else if layer = .memory ∧ longestMemoryName < path.length then .error (.cannotOpen text)
  else .ok {
    text
    file? := if layer = .memory then none else some path
    access := mode.access
    layer
    frozen := switched "immutable" false parameters
    unlocked := switched "nolock" false parameters
    fixedIndex := switched "readonly_shm" false parameters
    blockSize := if switched "psow" true parameters then 512 else 4096
    example? := parameters.lookup (bytes "modeof") }

/-- The locator of a URI, from what is behind `file:`. -/
def ofUri (text : String) (uri : List UInt8) : Except AccessFault Locator := do
  let uri ← (behindHost uri).mapError .badLocator
  let (path, query) := (uri.takeWhile (· ≠ ascii '#')).span (· ≠ ascii '?')
  let parameters := parameters (query.drop 1)
  let choice ← (parameters.foldlM Choice.add Choice.default).mapError .badLocator
  match Layer.ofName? choice.layer with
  | none => throw (.badLocator (.unknownLayer (readable choice.layer)))
  | some layer => ofParts text (percentDecode path) parameters choice.mode layer

/-- The locator that a text stands for. -/
def ofText (text : String) : Except AccessFault Locator :=
  if (bytes "file:").isPrefixOf (bytes text) then ofUri text ((bytes text).drop 5)
  else .ok (ofPath text)

end Locator

end FilterStore
