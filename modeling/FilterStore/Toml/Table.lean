/-!
The tables that a TOML document builds up.

* **Nodes.** An `Entry` is a name with a value, a table or an array of tables. A table remembers how
  it came to be: by a header of its own, on the way to another header, or by a key with points.
* **Rules.** `define` puts a value under a key: no name is used twice, and a key with points only
  goes through tables that such keys have made. `openTable` opens a table by a header, which may
  happen once and not to tables made by keys with points. `openElement` appends a table to an array
  of tables. Names on the way lead into the last table of an array.
-/

namespace FilterStore.Toml

/-- A value, as far as it is looked at. -/
inductive Value where
  /-- A text. -/
  | text (s : String)
  /-- An integer. -/
  | integer (n : Int)
  /-- A value of another kind. -/
  | other
  deriving DecidableEq, Repr

/-- How a table came to be. -/
inductive Origin where
  /-- By a header of its own, or as the outermost table. -/
  | header
  /-- On the way to the table of a header. -/
  | implied
  /-- By a key with points. -/
  | dotted
  deriving DecidableEq, Repr

/-- What stands under a name. -/
inductive Node where
  /-- A value. -/
  | value (v : Value)
  /-- A table. -/
  | table (origin : Origin) (entries : List (String × Node))
  /-- An array of tables, the last one first. -/
  | tables (elements : List (List (String × Node)))

/-- A name and what stands under it. -/
abbrev Entry := String × Node

/-- What stands under a name. -/
def find? (name : String) (entries : List Entry) : Option Node :=
  (entries.find? (·.1 = name)).map (·.2)

/-- Puts something under a name, instead of what stands there. -/
def put (name : String) (node : Node) (entries : List Entry) : List Entry :=
  (entries.filter (·.1 ≠ name)) ++ [(name, node)]

/-- Changes the table at the end of a path. Tables that are missing on the way are made; their
origin is a key with points if `dotted`, and then the path must not go through tables with headers
of their own. -/
def within (dotted : Bool) (change : Origin → List Entry → Option (List Entry)) :
    List String → Origin → List Entry → Option (List Entry)
  | [], origin, entries => change origin entries
  | name :: path, _, entries =>
    match find? name entries with
    | none => do
      let origin := if dotted then .dotted else .implied
      let inner ← within dotted change path origin []
      return put name (.table origin inner) entries
    | some (.table origin inner) => do
      if dotted ∧ origin = .header then failure
      return put name (.table origin (← within dotted change path origin inner)) entries
    | some (.tables (last :: earlier)) => do
      return put name (.tables ((← within dotted change path .header last) :: earlier)) entries
    | some _ => failure

/-- Puts a value under a key. -/
def define (key : List String) (v : Value) (entries : List Entry) : Option (List Entry) :=
  match key.reverse with
  | [] => none
  | name :: path =>
    within true (fun origin inner =>
      if (origin = .dotted) = (path = []) then none
      else if (find? name inner).isSome then none
      else some (put name (.value v) inner)) path.reverse .header entries

/-- Opens the table of a header. -/
def openTable (key : List String) (entries : List Entry) : Option (List Entry) :=
  match key.reverse with
  | [] => none
  | name :: path =>
    within false (fun _ inner =>
      match find? name inner with
      | none => some (put name (.table .header []) inner)
      | some (.table .implied content) => some (put name (.table .header content) inner)
      | some _ => none) path.reverse .header entries

/-- Appends a table to the array of tables of a header. -/
def openElement (key : List String) (entries : List Entry) : Option (List Entry) :=
  match key.reverse with
  | [] => none
  | name :: path =>
    within false (fun _ inner =>
      match find? name inner with
      | none => some (put name (.tables [[]]) inner)
      | some (.tables elements) => some (put name (.tables ([] :: elements)) inner)
      | some _ => none) path.reverse .header entries

/-- Puts a value under a key inside the table that was opened last. -/
def defineIn (header key : List String) (v : Value) (entries : List Entry) : Option (List Entry) :=
  within false (fun _ inner => define key v inner) header .header entries

end FilterStore.Toml
