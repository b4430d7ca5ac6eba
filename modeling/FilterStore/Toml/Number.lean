import FilterStore.Text.Numeral
import FilterStore.Time.Date
import FilterStore.Toml.Quoted

/-!
Numbers and dates of TOML.

* **Integers.** `integer` reads a signed decimal without leading zeros, or digits of base 16, 8 or 2
  behind `0x`, `0o` or `0b` without a sign. Underscores may stand between digits. The value fits 64
  bits with sign.
* **Decimals.** `decimal` takes a number with a fraction or an exponent, or `inf` or `nan`; a positive
  one must not round to infinity (`isHuge`).
* **Dates.** `dateTime` takes a day, a time of day, or both with an optional offset.
-/

namespace FilterStore.Toml

/-! ### Integers -/

/-- Takes digits, with single underscores between them, and gives the digits. -/
def grouped (isDigit : Char → Bool) : Reading (List Char) := do
  let first ← characterWith isDigit
  let rest ← repeated (perhaps
    (characterWith isDigit <|> (do character '_'; characterWith isDigit)))
  return first :: rest

/-- Takes a sign and tells whether it is a minus. -/
def sign : Reading Bool :=
  (fun _ => true) <$> character '-' <|> (fun _ => false) <$> character '+' <|> pure false

/-- Takes the digits of a number without leading zeros. -/
def wholeDigits : Reading (List Char) := do
  match ← peek with
  | some '0' =>
    character '0'
    return ['0']
  | _ => grouped Char.isDigit

/-- Takes a number in another base behind its mark. -/
def basedInteger (mark : String) (base : Nat) (isDigit : Char → Bool) : Reading Int := do
  word mark
  return valueInBase base (← grouped isDigit)

/-- Takes a signed decimal number. -/
def decimalInteger : Reading Int := do
  let negative ← sign
  let n : Int := Numeral.value (← wholeDigits)
  return if negative then -n else n

/-- Takes an integer. -/
def integer : Reading Int := do
  let n ← basedInteger "0x" 16 isHexDigit
    <|> basedInteger "0o" 8 (fun c => '0' ≤ c && c ≤ '7')
    <|> basedInteger "0b" 2 (fun c => c == '0' || c == '1')
    <|> decimalInteger
  if Int64.minValue.toInt ≤ n ∧ n ≤ Int64.maxValue.toInt then return n else failure

/-! ### Decimals -/

/-- Whether `digits` times ten to the `exponent` rounds to infinity in 64 bits: it does from halfway
between the greatest number and `2^1024` on. The number of digits settles all but the close
cases. -/
def isHuge (digits : List Char) (exponent : Int) : Bool :=
  let significant := digits.dropWhile (· == '0')
  let magnitude := significant.length + exponent
  let bound := Nat.pow 2 1024 - Nat.pow 2 970
  if significant.isEmpty || magnitude < 300 then false
  else if 320 < magnitude then true
  else if 0 ≤ exponent then bound ≤ Numeral.value significant * Nat.pow 10 exponent.toNat
  else bound * Nat.pow 10 exponent.natAbs ≤ Numeral.value significant

/-- Takes an exponent. -/
def exponent : Reading Int := do
  discard (characterWith fun c => c == 'e' || c == 'E')
  let negative ← sign
  let n : Int := Numeral.value (← grouped Char.isDigit)
  return if negative then -n else n

/-- Takes a decimal part. -/
def decimalPart : Reading (List Char) := do
  character '.'
  grouped Char.isDigit

/-- Takes a decimal part with an optional exponent, or an exponent alone. -/
def decimalTail : Reading (List Char × Int) :=
  (fun e => ([], e)) <$> exponent <|> do
    let part ← decimalPart
    let e ← perhaps exponent
    return (part, e.getD 0)

/-- Takes a number with a decimal part or an exponent. -/
def plainDecimal : Reading Unit := do
  let negative ← sign
  let whole ← wholeDigits
  let (part, e) ← decimalTail
  if !negative && isHuge (whole ++ part) (e - part.length) then failure else return ()

/-- Takes the words for infinity and for no number. -/
def specialDecimal : Reading Unit := do
  discard sign
  word "inf" <|> word "nan"

/-- Takes a decimal. -/
def decimal : Reading Unit :=
  plainDecimal <|> specialDecimal

/-! ### Dates -/

/-- Takes a number of a given width between `low` and `high`. -/
def fixedNumber (width low high : Nat) : Reading Nat := fun cs =>
  let digits := cs.take width
  let n := Numeral.value digits
  if digits.length = width ∧ digits.all Char.isDigit ∧ low ≤ n ∧ n ≤ high then
    some (n, cs.drop width)
  else none

/-- Takes a day of the calendar. -/
def dayPart : Reading Unit := do
  let year ← fixedNumber 4 0 9999
  character '-'
  let month ← fixedNumber 2 1 12
  character '-'
  let day ← fixedNumber 2 1 31
  if day ≤ daysIn year month then return () else failure

/-- Takes a time of day. -/
def timePart : Reading Unit := do
  discard (fixedNumber 2 0 23)
  character ':'
  discard (fixedNumber 2 0 59)
  character ':'
  discard (fixedNumber 2 0 60)
  discard (perhaps (do character '.'; discard (characterWith Char.isDigit); taking Char.isDigit))

/-- Takes an offset. -/
def offsetPart : Reading Unit :=
  discard (characterWith fun c => c == 'Z' || c == 'z') <|> do
    discard (characterWith fun c => c == '+' || c == '-')
    discard (fixedNumber 2 0 23)
    character ':'
    discard (fixedNumber 2 0 59)

/-- Takes a day with an optional time, or a time alone. -/
def dateTime : Reading Unit :=
  (do
    dayPart
    discard (perhaps do
      discard (characterWith fun c => c == 'T' || c == 't' || c == ' ')
      timePart
      discard (perhaps offsetPart)))
  <|> timePart

end FilterStore.Toml
