import FilterStore.Failure
import FilterStore.Text.Blank
import FilterStore.Text.Numeral

/-!
Limits as written by people.

`Limit.read` takes the word `unlimited` in any case of its ASCII letters, or a number of bytes with
an optional plus sign and any leading zeros, with blanks around either. What it refuses it names
without those blanks.
-/

namespace FilterStore.Limit

/-- The word for no limit. -/
def unlimitedWord : List Char :=
  "unlimited".toList

/-- Whether two texts differ at most in the case of ASCII letters. -/
def sameLetters (cs ds : List Char) : Bool :=
  cs.map Char.toLower == ds.map Char.toLower

/-- Reads a limit. -/
def read (s : String) : Except Failure Limit :=
  let cs := Text.trim s.toList
  if sameLetters cs unlimitedWord then .ok .unlimited
  else
    match Numeral.readUnsigned cs with
    | .ok count => .ok (.bytes count)
    | .error _ => .error (.notALimit (String.ofList cs))

end FilterStore.Limit
