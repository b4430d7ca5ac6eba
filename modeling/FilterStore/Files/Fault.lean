/-!
Trouble with files.

* **Files.** A `FileFault` is why a path does not lead to a file that can be used.
* **Locators.** A `LocatorFault` is why a URI does not say where a database is.
* **Databases.** An `AccessFault` is why a database cannot be opened, read or written.

Each has a `message`. What keeps a database from being used also has an `origin`, with a number for
its kind.
-/

namespace FilterStore

/-! ### Files -/

/-- Trouble with files. -/
inductive FileFault where
  /-- There is no such file or directory. -/
  | notFound
  /-- Something else is already in this place. -/
  | alreadyExists
  /-- A file stands where the path needs a directory. -/
  | notADirectory
  /-- A directory stands where a file is needed. -/
  | isADirectory
  /-- A part of the path is too long. -/
  | nameTooLong
  /-- The path holds a NUL character. -/
  | nulInPath
  /-- The bytes are not the UTF-8 form of a text. -/
  | notText
  deriving DecidableEq, Repr

/-- What is said about trouble with files. -/
def FileFault.message : FileFault → String
  | .notFound => "No such file or directory (os error 2)"
  | .alreadyExists => "File exists (os error 17)"
  | .notADirectory => "Not a directory (os error 20)"
  | .isADirectory => "Is a directory (os error 21)"
  | .nameTooLong => "File name too long (os error 36)"
  | .nulInPath => "file name contained an unexpected NUL byte"
  | .notText => "stream did not contain valid UTF-8"

/-! ### Locators -/

/-- Why a URI does not say where a database is. -/
inductive LocatorFault where
  /-- The database is on another host. -/
  | foreignHost (host : String)
  /-- There is no such mode of a kind. -/
  | unknownMode (kind value : String)
  /-- The mode allows more than an earlier one. -/
  | excessMode (value : String)
  /-- Files cannot be reached in such a way. -/
  | unknownLayer (name : String)
  deriving DecidableEq, Repr

/-- What is said about a URI of a database. -/
def LocatorFault.message : LocatorFault → String
  | .foreignHost host => "invalid uri authority: " ++ host
  | .unknownMode kind value => s!"no such {kind} mode: {value}"
  | .excessMode value => "access mode not allowed: " ++ value
  | .unknownLayer name => "no such vfs: " ++ name

/-- What is behind a URI that is not accepted. -/
def LocatorFault.origin : LocatorFault → String
  | .excessMode _ => "Error code 3: Access permission denied"
  | _ => "Error code 1: SQL error or missing database"

/-! ### Databases -/

/-- Why a database cannot be used. -/
inductive AccessFault where
  /-- It is not to be made out where it is. -/
  | badLocator (fault : LocatorFault)
  /-- Its file cannot be opened. -/
  | cannotOpen (path : String)
  /-- A file beside its own cannot be opened. -/
  | cannotOpenBeside
  /-- What should be a file is a directory. -/
  | unreadable
  /-- The file whose permissions a new one should have is missing. -/
  | missingExample
  /-- A directory stands where a file beside its own has to go. -/
  | unremovable
  /-- It may only be read. -/
  | readOnly
  /-- It may only be read, but was left in the middle of a write that has to be undone. -/
  | interrupted
  /-- It is in use elsewhere. -/
  | locked
  /-- Its file holds something else. -/
  | notADatabase
  deriving DecidableEq, Repr

/-- What is said about a database that cannot be used. -/
def AccessFault.message : AccessFault → String
  | .badLocator fault => fault.message
  | .cannotOpen path => "unable to open database file: " ++ path
  | .cannotOpenBeside => "unable to open database file"
  | .unreadable | .missingExample | .unremovable => "disk I/O error"
  | .readOnly | .interrupted => "attempt to write a readonly database"
  | .locked => "database is locked"
  | .notADatabase => "file is not a database"

/-- What is behind a database that cannot be used. -/
def AccessFault.origin : AccessFault → String
  | .badLocator fault => fault.origin
  | .cannotOpen _ | .cannotOpenBeside => "Error code 14: Unable to open the database file"
  | .unreadable => "Error code 266: Error reading from disk"
  | .missingExample => "Error code 1802: Error invoking fstat to get file metadata"
  | .unremovable => "Error code 2570: I/O error within xDelete of a VFS object"
  | .readOnly => "Error code 8: Attempt to write a readonly database"
  | .interrupted =>
    "Error code 776: Database has hot journal that must be rolled back (requires write access)"
  | .locked => "Error code 5: The database file is locked"
  | .notADatabase => "Error code 26: File opened that is not a database file"

end FilterStore
