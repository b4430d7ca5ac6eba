import FilterStore.Text.Blank
import FilterStore.Text.Numeral
import FilterStore.Time.Instant

/-!
The pieces of written dates, read from the left.

* **Faults.** `Timestamp.Fault` says why a text is not a date, with its wording in
  `Fault.message`.
* **Steps.** A `Reading` takes characters from the front of what is left and reports the first fault
  from the left. `number` reads a number of bounded width, `character` one given character,
  `fraction` an optional decimal part of a second, `offset` the distance to universal time in
  minutes. `day` and `minuteOfDay` refuse numbers that no calendar and no clock shows.
* **Fields.** `Fields` holds what a written date says, `Fields.instant?` is the instant meant, and
  `whole` reads a text from its beginning to its end.
-/

namespace FilterStore.Timestamp

/-- Why a text is not a date. -/
inductive Fault where
  /-- A character that cannot stand here. -/
  | invalid
  /-- The text ends too soon. -/
  | tooShort
  /-- A number is outside its range, or the calendar has no such day. -/
  | outOfRange
  /-- The date is followed by something else. -/
  | trailing
  deriving DecidableEq, Repr

/-- What is said about a text that is not a date. -/
def Fault.message : Fault → String
  | .invalid => "input contains invalid characters"
  | .tooShort => "premature end of input"
  | .outOfRange => "input is out of range"
  | .trailing => "trailing input"

/-- A step that takes characters from the front of a text. -/
abbrev Reading := StateT (List Char) (Except Fault)

/-! ### Characters and numbers -/

/-- The length of a text in bytes of its UTF-8 form. -/
def byteLength (cs : List Char) : Nat :=
  cs.foldr (fun c n => c.utf8Size + n) 0

/-- Takes the next character if it is among the given ones. -/
def characterOf (allowed : List Char) : Reading Char := fun cs =>
  match cs with
  | [] => .error .tooShort
  | c :: rest => if c ∈ allowed then .ok (c, rest) else .error .invalid

/-- Takes one given character. -/
def character (c : Char) : Reading Char :=
  characterOf [c]

/-- Takes digits, at least `least` and at most `most` of them. -/
def digits (least most : Nat) : Reading (List Char) := fun cs =>
  let taken := (cs.take most).takeWhile Char.isDigit
  if byteLength cs < least then .error .tooShort
  else if taken.length < least then .error .invalid
  else .ok (taken, cs.drop taken.length)

/-- Reads a number of `least` to `most` digits. -/
def number (least most : Nat) : Reading Nat :=
  Numeral.value <$> digits least most

/-- Drops the blanks in front. -/
def blanks : Reading Unit :=
  modify Text.trimStart

/-! ### Fractions and offsets -/

/-- Reads an optional point and decimal part of a second, as nanoseconds: nine digits count, and
more are passed over. -/
def fraction : Reading Nat := do
  match ← get with
  | '.' :: rest =>
    set rest
    let ds ← digits 1 9
    modify (List.dropWhile Char.isDigit)
    return Numeral.value ds * Nat.pow 10 (9 - ds.length)
  | _ => return 0

/-- Reads the distance to universal time in minutes, positive to the east: the letter Z, or a sign,
two digits of hours, what separates them and two digits of minutes up to 59. The minus sign of
typography counts as a minus. -/
def offset (separator : Reading Unit) : Reading Int := do
  let mark ← characterOf ['Z', 'z', '+', '-', '−']
  if mark = 'Z' ∨ mark = 'z' then
    return 0
  else do
    let hours ← number 2 2
    separator
    let minutes ← number 2 2
    if minutes < 60 then
      let size : Int := (60 * hours + minutes : Nat)
      return if mark = '+' then size else -size
    else
      throw .outOfRange

/-! ### Days and times -/

/-- The day of these numbers. -/
def day (year : Int) (month day : Nat) : Reading Date :=
  match Date.ofCivil? year month day with
  | some date => pure date
  | none => throw .outOfRange

/-- The minute of the day, if the second may be part of it. -/
def minuteOfDay (hour minute second : Nat) : Reading Nat :=
  if hour < 24 ∧ minute < 60 ∧ second ≤ 60 then pure (60 * hour + minute) else throw .outOfRange

/-- What a written date says. -/
structure Fields where
  /-- The day. -/
  date : Date
  /-- The minute of the day. -/
  minute : Nat
  /-- The second of the minute. -/
  second : Nat
  /-- The nanosecond of the second. -/
  nano : Nat
  /-- How many minutes the clock is ahead of universal time. -/
  offset : Int
  deriving DecidableEq, Repr

/-- The instant a written date means. Clocks differ from universal time by less than a day. -/
def Fields.instant? (f : Fields) : Option Instant :=
  if -1440 < f.offset ∧ f.offset < 1440 then
    Instant.ofLocal? f.date f.minute f.second f.nano f.offset
  else none

/-- Reads a whole text. What follows the date is reported before an offset of a day or more. -/
def whole (reading : Reading Fields) (cs : List Char) : Except Fault Instant :=
  match reading cs with
  | .error fault => .error fault
  | .ok (f, []) =>
    match f.instant? with
    | some t => .ok t
    | none => .error .outOfRange
  | .ok (_, _ :: _) => .error .trailing

end FilterStore.Timestamp
