import FilterStore.Time.Timestamp

/-!
Dates as exchanged with other programs.

`readLenient?` accepts more than the stored form: numbers may have fewer digits than their full
width, blanks may stand before a number or a separator, years may have a sign and then any number of
digits, the offset may be spelled `UTC`, and its hours and minutes may be separated by colons,
blanks or nothing. The day must be one of the calendar.
-/

namespace FilterStore.Timestamp

/-- Reads a number of one or two digits behind blanks. -/
def spacedNumber : Reading Nat := do
  blanks
  number 1 2

/-- Takes a separator behind blanks. -/
def spacedCharacter (c : Char) : Reading Unit := do
  blanks
  discard (character c)

/-- Reads a year behind blanks: up to four digits, or a sign and any number of digits. -/
def signedYear : Reading Int := do
  blanks
  match ← get with
  | '-' :: rest =>
    set rest
    let ds ← digits 1 rest.length
    return -(Numeral.value ds : Int)
  | '+' :: rest =>
    set rest
    let ds ← digits 1 rest.length
    return Numeral.value ds
  | _ =>
    let ds ← digits 1 4
    return Numeral.value ds

/-- Drops colons and blanks in front. -/
def colonsAndBlanks : Reading Unit :=
  modify (List.dropWhile fun c => c == ':' || Text.isBlank c)

/-- Reads an offset behind blanks: the letters UTC in either case, or as in the stored form with
any colons and blanks between hours and minutes. -/
def spacedOffset : Reading Int := do
  blanks
  match ← get with
  | a :: b :: c :: rest =>
    if String.ofList ([a, b, c].map Char.toUpper) = "UTC" then
      set rest
      return 0
    else offset colonsAndBlanks
  | _ => offset colonsAndBlanks

/-- Reads the fields of a date as other programs write it. -/
def lenientFields : Reading Fields := do
  let year ← signedYear
  spacedCharacter '-'
  let month ← spacedNumber
  spacedCharacter '-'
  let dayOfMonth ← spacedNumber
  let _ ← characterOf ['t', 'T', ' ']
  let hour ← spacedNumber
  spacedCharacter ':'
  let minute ← spacedNumber
  spacedCharacter ':'
  let second ← spacedNumber
  let nano ← fraction
  let offset ← spacedOffset
  blanks
  let date ← day year month dayOfMonth
  let minute ← minuteOfDay hour minute second
  return ⟨date, minute, second, nano, offset⟩

/-- Reads a text as other programs write dates. -/
def readLenient? (s : String) : Option Instant :=
  (whole lenientFields s.toList).toOption

end FilterStore.Timestamp
