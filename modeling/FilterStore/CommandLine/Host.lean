import FilterStore.Files.Opening
import FilterStore.Time.Instant

/-!
What a command line needs from where it runs.

* **Hosts.** A `Host` gives files, databases, the standard input and a clock. What it calls an open
  database is its own matter.
* **Worlds.** A `World` is a host whose parts are values, so that what a command line does in it is
  a function: a tree of files, the bytes of the standard input and the time.
-/

namespace FilterStore.CommandLine

/-- A monad in which command lines can run, with what stands in it for an open database. -/
class Host (m : Type → Type) (Handle : outParam Type) where
  /-- Reads a file. -/
  readFile (path : String) : m (Except FileFault ByteArray)
  /-- Reads the standard input to its end. -/
  readInput : m ByteArray
  /-- Tells the time. -/
  now : m Instant
  /-- Whether there is something at a path. -/
  isPresent (path : String) : m Bool
  /-- Makes the missing directories of a path. -/
  makeDirectories (path : String) : m (Except FileFault Unit)
  /-- Opens a database, and makes its file where it may and there is none. -/
  connect (l : Locator) : m (Except AccessFault Handle)
  /-- Reads the tables of an open database, and tells what may be done to them. -/
  load (h : Handle) : m (Except AccessFault (Database × Writing))
  /-- Writes the tables of an open database, if they may be written, and closes it. -/
  close (h : Handle) (db : Database) (writing : Writing) : m Unit

/-- A host as a value. -/
structure World where
  /-- The files. -/
  files : FileTree
  /-- What there is on the standard input. -/
  input : ByteArray
  /-- The time. -/
  now : Instant

namespace World

/-- Changes the files of a world. -/
def alter {α : Type} (f : FileTree → α × FileTree) : StateM World α := fun w =>
  let (a, files) := f w.files
  (a, { w with files := files })

/-- Works on the files of a world. -/
def work {α : Type} (act : FileTree.Work α) : StateM World (Except AccessFault α) :=
  alter fun files =>
    match act files with
    | .ok a after => (.ok a, after)
    | .error fault after => (.error fault, after)

/-- Takes what is left on the standard input. -/
def takeInput : StateM World ByteArray := fun w =>
  (w.input, { w with input := .empty })

instance : Host (StateM World) FileTree.Handle where
  readFile path := do
    let w ← get
    if w.files.isInput path then discard takeInput
    return w.files.readFile w.input path
  readInput := takeInput
  now := return (← get).now
  isPresent path := return (← get).files.isPresent path
  makeDirectories path := alter (·.makeDirectories path)
  connect l := work (FileTree.connect l)
  load h := work (FileTree.load h)
  close h db writing := discard (work (FileTree.close h db writing))

end World

end FilterStore.CommandLine
