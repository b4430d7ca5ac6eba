import FilterStore.CommandLine.Run
import FilterStore.Store.Archive
import Std.Time.DateTime.Timestamp

/-!
The command line on a real machine: files, standard input and clock of the system.
-/

namespace FilterStore.CommandLine

/-- The fault that an error of the system stands for, if it stands for one. -/
def fileFault? : IO.Error → Option FileFault
  | .noFileOrDirectory _ _ _ | .noSuchThing _ _ _ => some .notFound
  | .alreadyExists _ _ _ => some .alreadyExists
  | .inappropriateType _ code _ => some (if code = 21 then .isADirectory else .notADirectory)
  | .invalidArgument _ 36 _ => some .nameTooLong
  | .invalidArgument _ _ _ => some .nulInPath
  | _ => none

/-- Takes the errors of the system that stand for faults of files. -/
def catchFault {α : Type} (act : IO α) : IO (Except FileFault α) := do
  match ← act.toBaseIO with
  | .ok a => return .ok a
  | .error e =>
    match fileFault? e with
    | some fault => return .error fault
    | none => throw e

/-- Makes the missing directories of a path. A file on the way is told before any is made. -/
def makeDirectories (path : String) : IO (Except FileFault Unit) := do
  if path = "" then return .ok ()
  match ← catchFault (IO.FS.createDir path) with
  | .ok () => return .ok ()
  | .error .notADirectory => return .error .notADirectory
  | .error _ => catchFault (IO.FS.createDirAll path)

/-- Reads a stream to its end. -/
partial def readToEnd (stream : IO.FS.Stream) (bytes : ByteArray) : IO ByteArray := do
  let more ← stream.read 65536
  if more.isEmpty then return bytes else readToEnd stream (bytes ++ more)

/-- The time on the clock of the system. -/
def systemTime : IO Instant := do
  let d := (← Std.Time.Timestamp.now).toDurationSinceUnixEpoch
  match Instant.ofEpoch? d.second.val.toNat d.nano.val.toNat with
  | some t => return t
  | none => throw (IO.userError "the clock shows no date")

instance : Host IO Locator where
  readFile path := catchFault (IO.FS.readBinFile path)
  readInput := do readToEnd (← IO.getStdin) .empty
  now := systemTime
  isPresent path := do
    match ← (IO.FS.Handle.mk path .read).toBaseIO with
    | .ok _ => return true
    | .error _ => return false
  makeDirectories := makeDirectories
  connect l := do
    match l.file? with
    | none => return .ok l
    | some bytes =>
      let mode := if l.access = .create then IO.FS.Mode.append else .read
      match ← (IO.FS.Handle.mk (Text.readable bytes) mode).toBaseIO with
      | .ok _ => return .ok l
      | .error _ => return .error (.cannotOpen l.text)
  load l := do
    let new : Except AccessFault (Database × Writing) :=
      if l.readOnly then .error .readOnly else .ok (.empty, .allowed)
    match l.file? with
    | none => return new
    | some path =>
      let bytes ← IO.FS.readBinFile (Text.readable path)
      if bytes.size ≤ 1 then return new
      match (String.fromUTF8? bytes).bind Database.ofArchive? with
      | some db => return .ok (db, if l.readOnly then .refused else .allowed)
      | none => return .error .notADatabase
  close l db writing := do
    match l.file?, writing with
    | some path, .allowed => IO.FS.writeFile (Text.readable path) db.archive
    | _, _ => return ()

/-- An event as a line of a log. -/
def eventLine (e : Event) : String :=
  let level := match e.level with
    | .debug => "DEBUG"
    | .info => "INFO"
    | .warn => "WARN"
  let fields := e.fields.map fun (name, value) =>
    match value with
    | .text s => s!" {name}={s}"
    | .number n => s!" {name}={n}"
  s!"{level} {e.message}" ++ String.join fields

end FilterStore.CommandLine

open FilterStore.CommandLine in
/-- Runs the words of the command line and ends with its exit code. -/
def main (words : List String) : IO UInt32 := do
  let report ← FilterStore.CommandLine.run (m := IO) words
  for e in report.events do
    if e.level ≠ .debug then IO.eprintln (eventLine e)
  IO.print report.output
  (← IO.getStdout).flush
  match report with
  | .ran (.error fault) _ => IO.eprintln s!"Error: {fault.message}"
  | _ => if let some message := report.error? then IO.eprintln message
  return report.exitCode
