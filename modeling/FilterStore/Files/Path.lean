import FilterStore.Files.Fault
import FilterStore.Text.Bytes

/-!
Paths of files.

* **Names.** The name of a file is a sequence of bytes, nearly always those of a text.
* **Steps.** A path is names between slashes. `Path.read` takes a path apart into steps: a name
  leads into a directory, one point stays and two points lead up. Slashes in a row count as one.
* **Places.** A `Location` is where a path leads, as the names from the innermost outwards. The way
  up from the root stays at the root.
-/

namespace FilterStore

open Text

/-- The name of a file in its directory. -/
abbrev FileName := List UInt8

/-- A place in the tree of files: the names on the way to it, the last one first. -/
abbrev Location := List FileName

namespace Location

/-- The number of bytes of the path that leads to a place from the root. -/
def width (place : Location) : Nat :=
  place.foldl (fun n name => n + 1 + name.length) 0

/-- The place beside another one whose name is longer by an ending. -/
def beside (ending : String) : Location → Location
  | [] => []
  | name :: around => (name ++ bytes ending) :: around

end Location

/-- One step along a path. -/
inductive PathStep where
  /-- Stays where it is. -/
  | stay
  /-- Leads to the directory around. -/
  | up
  /-- Leads to the entry of a name. -/
  | into (name : FileName)
  deriving DecidableEq, Repr

/-- A path. -/
structure Path where
  /-- Whether it starts at the root. -/
  absolute : Bool
  /-- The steps, the first one first. -/
  steps : List PathStep
  /-- Whether a slash at the end asks for a directory. -/
  slashed : Bool
  deriving DecidableEq, Repr

namespace PathStep

/-- The step of a part between slashes, if the part is not empty. -/
def ofPart? (part : List UInt8) : Option PathStep :=
  if part = [] then none
  else if part = bytes "." then some .stay
  else if part = bytes ".." then some .up
  else some (.into part)

/-- The greatest number of bytes of a name. -/
def longestName : Nat := 255

/-- Where a step leads. -/
def lead (place : Location) : PathStep → Except FileFault Location
  | .stay => .ok place
  | .up => .ok place.tail
  | .into name =>
    if name.length ≤ longestName then .ok (name :: place) else .error .nameTooLong

end PathStep

namespace Path

/-- Takes a sequence of bytes apart at its slashes. -/
def ofBytes (path : List UInt8) : Path :=
  ⟨path.head? = some (ascii '/'), (pieces (ascii '/') path).filterMap PathStep.ofPart?,
    path.getLast? = some (ascii '/')⟩

/-- The number of bytes from which on a path is too long. -/
def lengthBound : Nat := 4096

/-- Takes a path apart. Without bytes there is no path. -/
def read (path : List UInt8) : Except FileFault Path :=
  if 0 ∈ path then .error .nulInPath
  else if lengthBound ≤ path.length then .error .nameTooLong
  else if path = [] then .error .notFound
  else .ok (ofBytes path)

end Path

end FilterStore
