import FilterStore.Toml.Number
import FilterStore.Toml.Table

/-!
TOML documents.

* **Values.** `value` reads a value: a text, a number, a date, a truth value, an array, which may go
  over several lines and end with a comma, or an inline table, which may not. Arrays and inline
  tables may be nested up to a limit.
* **Lines.** A document is a sequence of definitions, headers, comments and empty lines. Definitions
  belong to the table of the last header.
* **The whole.** `document?` gives the entries of the outermost table.
-/

namespace FilterStore.Toml

/-! ### Values -/

/-- Takes elements, with commas between them, up to a closing bracket. -/
def elements {α : Type} (element : Reading α) : Reading (List α) := do
  let es ← repeated do
    gap
    match ← peek with
    | some ']' => return none
    | _ =>
      let e ← element
      gap
      match ← peek with
      | some ',' =>
        character ','
        return some e
      | some ']' => return some e
      | _ => failure
  character ']'
  return es

/-- Takes a key and a value, with an equals sign between them. -/
def definition {α : Type} (element : Reading α) : Reading (List String × α) := do
  let k ← key
  character '='
  blanks
  let v ← element
  return (k, v)

/-- Takes definitions, with commas between them, up to a closing brace. -/
def definitions {α : Type} (element : Reading α) : Reading (List (List String × α)) := do
  blanks
  match ← peek with
  | some '}' =>
    character '}'
    return []
  | _ =>
    let member : Reading (List String × α) := do
      let d ← definition element
      blanks
      return d
    let first ← member
    let rest ← repeated (perhaps do character ','; member)
    character '}'
    return first :: rest

/-- Whether definitions may stand together in one table. -/
def agree (ds : List (List String × Value)) : Bool :=
  (ds.foldlM (fun entries d => define d.1 d.2 entries) []).isSome

/-- Takes a value without parts. -/
def scalar : Reading Value := do
  match ← peek with
  | some '"' | some '\'' => .text <$> text
  | some 't' =>
    word "true"
    return .other
  | some 'f' =>
    word "false"
    return .other
  | _ => (fun _ => .other) <$> dateTime <|> (fun _ => .other) <$> decimal <|> .integer <$> integer

/-- Takes an array or an inline table. -/
def container (element : Reading Value) : Reading Value := do
  match ← peek with
  | some '[' =>
    character '['
    discard (elements element)
    return .other
  | some '{' =>
    character '{'
    let ds ← definitions element
    if agree ds then return .other else failure
  | _ => failure

/-- Takes a value in which so many levels of arrays and inline tables may be nested. -/
def value : Nat → Reading Value
  | 0 => scalar
  | levels + 1 => scalar <|> container (value levels)

/-! ### Lines -/

/-- What has been read: the table of the last header, and all entries. -/
structure Progress where
  /-- The path of the last header. -/
  header : List String
  /-- The entries of the outermost table. -/
  entries : List Entry

/-- Takes the rest of a header behind its opening brackets. -/
def header (closing : String) : Reading (List String) := do
  let k ← key
  word closing
  restOfLine
  return k

/-- Goes on with changed entries, if the change was allowed. -/
def allowed (path : List String) : Option (List Entry) → Reading Progress
  | some entries => return ⟨path, entries⟩
  | none => failure

/-- Takes one line and does what it says. -/
def line (progress : Progress) : Reading Progress := do
  match ← peek with
  | some '#' =>
    comment
    newline <|> endOfText
    return progress
  | some '[' =>
    character '['
    match ← peek with
    | some '[' =>
      character '['
      let k ← header "]]"
      allowed k (openElement k progress.entries)
    | _ =>
      let k ← header "]"
      allowed k (openTable k progress.entries)
  | some '\n' | some '\r' =>
    newline
    return progress
  | _ =>
    let (k, v) ← definition (value (levelLimit - 1))
    restOfLine
    allowed progress.header (defineIn progress.header k v progress.entries)

/-- Takes lines to the end of the text, at most `bound` of them. -/
def lines (progress : Progress) : Nat → Reading Progress
  | 0 => failure
  | bound + 1 => do
    blanks
    match ← peek with
    | none => return progress
    | some _ => lines (← line progress) bound

/-- The entries of a document. A byte order mark in front is passed over. -/
def document? (s : String) : Option (List Entry) :=
  let cs := s.toList
  let cs := if cs.head? = some '\ufeff' then cs.tail else cs
  ((lines ⟨[], []⟩ (cs.length + 1)).run cs).map (·.1.entries)

end FilterStore.Toml
