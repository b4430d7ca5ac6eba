import FilterStore.Time.Reading

/-!
Instants as text.

* **Writing.** `write` gives the stored form `2024-01-02T03:04:05+00:00`, `writeZulu` the same with
  a `Z` at the end. A fraction has as few of three, six or nine digits as hold it, and none if it is
  zero. A leap second is second 60. A year outside 0 to 9999 has a sign and at least four digits.
* **Reading.** `read` accepts the stored form at any offset below a day, with a fraction of any
  length, `t`, `T` or a space before the time and `z` or `Z` for universal time. The year has four
  digits and no sign, so years outside 0 to 9999 are written but not read.
-/

namespace FilterStore.Timestamp

/-! ### Writing -/

/-- A year: four digits, or a sign and at least four digits outside 0 to 9999. -/
def yearText (year : Int) : List Char :=
  if 0 ≤ year ∧ year ≤ 9999 then Numeral.padded 4 year.toNat
  else (if year < 0 then '-' else '+') :: Numeral.padded 4 year.natAbs

/-- A fraction of a second: nothing, or a point and three, six or nine digits. -/
def fractionText (nano : Nat) : List Char :=
  if nano = 0 then []
  else if nano % 1000000 = 0 then '.' :: Numeral.padded 3 (nano / 1000000)
  else if nano % 1000 = 0 then '.' :: Numeral.padded 6 (nano / 1000)
  else '.' :: Numeral.padded 9 nano

/-- The date and time of day of an instant. -/
def civilText (t : Instant) : List Char :=
  yearText t.year ++ '-' :: Numeral.padded 2 t.date.month ++ '-' :: Numeral.padded 2 t.date.day ++
    'T' :: Numeral.padded 2 (t.minute / 60) ++ ':' :: Numeral.padded 2 (t.minute % 60) ++
    ':' :: Numeral.padded 2 t.second ++ fractionText t.nano

/-- The stored form of an instant. -/
def write (t : Instant) : String :=
  String.ofList (civilText t ++ "+00:00".toList)

/-- The form of an instant with a letter for universal time. -/
def writeZulu (t : Instant) : String :=
  String.ofList (civilText t ++ ['Z'])

/-! ### Reading -/

/-- Reads a day: four digits of the year, two of the month and two of the day of the month. -/
def storedDay : Reading Date := do
  let year ← number 4 4
  let _ ← character '-'
  let month ← number 2 2
  let _ ← character '-'
  let dayOfMonth ← number 2 2
  day year month dayOfMonth

/-- Reads the fields of a date in the stored form. -/
def storedFields : Reading Fields := do
  let date ← storedDay
  let _ ← characterOf ['t', 'T', ' ']
  let hour ← number 2 2
  let _ ← character ':'
  let minute ← number 2 2
  let _ ← character ':'
  let second ← number 2 2
  let nano ← fraction
  let minute ← minuteOfDay hour minute second
  let offset ← offset (discard (character ':'))
  return ⟨date, minute, second, nano, offset⟩

/-- The number of bytes up to the seconds. A shorter text is too short whatever it holds. -/
def leastLength : Nat := 19

/-- Reads a text in the stored form. -/
def read (s : String) : Except Fault Instant :=
  let cs := s.toList
  if byteLength cs < leastLength then .error .tooShort else whole storedFields cs

end FilterStore.Timestamp
