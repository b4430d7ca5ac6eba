import FilterStore.Json.Flat
import FilterStore.Quota.Basic
import FilterStore.Script
import FilterStore.Text.Numeral
import FilterStore.Time.Lenient

/-!
Scripts, summaries and limits as JSON.

* **Writing.** `Script.json`, `Summary.json` and `Limit.json` write the fields in their fixed order
  without blanks. A missing activation date is left out, a present one ends with a letter for
  universal time. No limit is the text `"unlimited"`, a limit the object `{"size":n}`.
* **Reading.** `Script.ofJson?`, `Summary.ofJson?` and `Limit.ofJson?` take an object with the
  fields in any order, or an array of all fields in the fixed order. Members of other names are
  passed over, and a known name may occur once. Only the activation date may be missing or null.
  Sizes are whole numbers below `2^64` without sign, fraction or exponent, dates may be written in
  any lenient form.
* **Listings.** `listingJson` writes the scripts of an owner over several lines, indented by two
  blanks a level.
-/

namespace FilterStore

open Json

/-! ### Fields -/

namespace Json

/-- A text, if the value is one. -/
def Scalar.text? : Scalar → Option String
  | .text s => some s
  | _ => none

/-- A truth value, if the value is one. -/
def Scalar.bool? : Scalar → Option Bool
  | .bool value => some value
  | _ => none

/-- An unsigned 64-bit number, if the value is one and is written with digits only. -/
def Scalar.unsigned? : Scalar → Option UInt64
  | .number digits => if isDigits digits then (Numeral.readUnsigned digits).toOption else none
  | _ => none

/-- An optional date: `null`, or a text that is a date. -/
def Scalar.date? : Scalar → Option (Option Instant)
  | .null => some none
  | .text s => some <$> Timestamp.readLenient? s
  | _ => none

/-- A number as a value. -/
def Scalar.ofUnsigned (n : UInt64) : Scalar :=
  .number (Numeral.decimal n.toNat)

end Json

/-! ### Scripts -/

namespace Script

/-- The members of a script, in order. -/
def members (s : Script) : List Member :=
  [("owner", .text s.owner), ("name", .text s.name), ("content", .text s.content),
    ("size", .ofUnsigned s.size), ("active", .bool s.active)] ++
  match s.activatedAt with
  | none => []
  | some t => [("activated_at", .text (Timestamp.writeZulu t))]

/-- A script as JSON. -/
def json (s : Script) : String :=
  render (objectTokens s.members)

/-- The script with the given fields, if all of them are of their kinds. -/
def ofScalars? (owner name content size active : Scalar) (activatedAt : Option Scalar) :
    Option Script := do
  return ⟨← owner.text?, ← name.text?, ← content.text?, ← size.unsigned?, ← active.bool?,
    ← (activatedAt.getD .null).date?⟩

/-- The script with the given members. -/
def ofMembers? (ms : List Member) : Option Script := do
  ofScalars? (← required? "owner" ms) (← required? "name" ms) (← required? "content" ms)
    (← required? "size" ms) (← required? "active" ms) (← member? "activated_at" ms)

/-- Reads a script. -/
def ofJson? (text : String) : Option Script := do
  match ← read? text with
  | .object ms => ofMembers? ms
  | .array [owner, name, content, size, active, activatedAt] =>
    ofScalars? owner name content size active (some activatedAt)
  | _ => none

end Script

/-! ### Summaries -/

namespace Summary

/-- The members of a summary, in order. -/
def members (s : Summary) : List Member :=
  [("name", .text s.name), ("active", .bool s.active)]

/-- A summary as JSON. -/
def json (s : Summary) : String :=
  render (objectTokens s.members)

/-- The summary with the given fields, if both are of their kinds. -/
def ofScalars? (name active : Scalar) : Option Summary := do
  return ⟨← name.text?, ← active.bool?⟩

/-- Reads a summary. -/
def ofJson? (text : String) : Option Summary := do
  match ← read? text with
  | .object ms => ofScalars? (← required? "name" ms) (← required? "active" ms)
  | .array [name, active] => ofScalars? name active
  | _ => none

end Summary

/-! ### Limits -/

namespace Limit

/-- A limit as JSON. -/
def json : Limit → String
  | .unlimited => render [.quoted (some "unlimited")]
  | .bytes count => render (objectTokens [("size", .ofUnsigned count)])

/-- Reads a limit. -/
def ofJson? (text : String) : Option Limit := do
  match ← read? text with
  | .scalar (.text word) => if word = "unlimited" then some .unlimited else none
  | .object [(name, value)] =>
    if name = "size" then .bytes <$> value.unsigned?
    else if name = "unlimited" ∧ value = .null then some .unlimited
    else none
  | _ => none

end Limit

/-! ### Listings -/

/-- The lines of a summary inside a listing. -/
def Summary.lines (s : Summary) : List String :=
  ["      " ++ String.ofList (quote "name" ++ ':' :: ' ' :: quote s.name) ++ ",",
    "      " ++ String.ofList (quote "active" ++ [':', ' '] ++ (Token.bool s.active).spell)]

/-- Several summaries, each in braces and with commas between them. -/
def summaryLines : List Summary → List String
  | [] => []
  | [s] => "    \x7b" :: s.lines ++ ["    \x7d"]
  | s :: rest => "    \x7b" :: s.lines ++ "    \x7d," :: summaryLines rest

/-- The scripts of an owner as JSON over several lines. -/
def listingJson (owner : String) (scripts : List Summary) : String :=
  let ownerLine := "  " ++ String.ofList (quote "owner" ++ ':' :: ' ' :: quote owner) ++ ","
  let scriptsName := "  " ++ String.ofList (quote "scripts" ++ [':', ' '])
  "\n".intercalate <|
    match scripts with
    | [] => ["\x7b", ownerLine, scriptsName ++ "[]", "\x7d"]
    | _ => "\x7b" :: ownerLine :: (scriptsName ++ "[") :: summaryLines scripts ++ ["  ]", "\x7d"]

end FilterStore
