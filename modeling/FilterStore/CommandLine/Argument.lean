import FilterStore.CommandLine.Usage

/-!
The arguments and options that a command takes, and their values.

* **Forms.** A `Form` says which texts are values, and `Form.read` reads one: any text, a path,
  which is not empty, a limit, or a number of bytes.
* **Arguments.** An `Argument` is told by its place. An `Opt` is told by its name, and has a value
  or is a mere flag. Labels are how both are called in messages.
* **Values.** `Given` holds the values that were given, by the names of arguments and options.
-/

namespace FilterStore.CommandLine

/-! ### Forms -/

/-- Which texts are values of an argument. -/
inductive Form where
  /-- Any text. -/
  | text
  /-- A path of a file. -/
  | path
  /-- A limit. -/
  | limit
  /-- A number of bytes. -/
  | size
  deriving DecidableEq, Repr

/-- The value of an argument. -/
inductive Value where
  /-- A text. -/
  | text (s : String)
  /-- A limit. -/
  | limit (limit : Limit)
  /-- A number of bytes. -/
  | size (count : UInt64)
  /-- A flag that is raised. -/
  | raised
  deriving DecidableEq, Repr

/-- Reads the value of the argument that is called by the label. -/
def Form.read (form : Form) (label word : String) : Except UsageFault Value :=
  match form with
  | .text => .ok (.text word)
  | .path => if word = "" then .error (.missingValue label) else .ok (.text word)
  | .limit =>
    match Limit.read word with
    | .ok l => .ok (.limit l)
    | .error failure => .error (.invalidValue word label failure.message)
  | .size =>
    match Numeral.readUnsigned word.toList with
    | .ok count => .ok (.size count)
    | .error fault => .error (.invalidValue word label fault.message)

/-! ### Arguments and options -/

/-- An argument, told by its place. -/
structure Argument where
  /-- Its name. -/
  name : String
  /-- How its value is called. -/
  placeholder : String
  /-- Which texts it takes. -/
  form : Form
  deriving DecidableEq, Repr

/-- How an argument is called in messages. -/
def Argument.label (a : Argument) : String :=
  s!"<{a.placeholder}>"

/-- An option, told by its name. -/
inductive Opt where
  /-- An option without a value, perhaps with a letter for short. -/
  | flag (name : String) (letter : Option Char)
  /-- An option with a value. -/
  | valued (name placeholder : String) (form : Form)
  deriving DecidableEq, Repr

namespace Opt

/-- The name of an option. -/
def name : Opt → String
  | .flag name _ | .valued name _ _ => name

/-- The letter that stands for an option. -/
def letter? : Opt → Option Char
  | .flag _ letter => letter
  | .valued _ _ _ => none

/-- How an option is called in messages. -/
def label : Opt → String
  | .flag name _ => "--" ++ name
  | .valued name placeholder _ => s!"--{name} <{placeholder}>"

end Opt

/-! ### Values -/

/-- The values that were given, by name. -/
abbrev Given := List (String × Value)

namespace Given

/-- The text of an argument or option. -/
def text? (g : Given) (name : String) : Option String :=
  match g.lookup name with
  | some (.text s) => some s
  | _ => none

/-- The limit that an argument gives. -/
def limit? (g : Given) (name : String) : Option Limit :=
  match g.lookup name with
  | some (.limit limit) => some limit
  | _ => none

/-- The number of bytes that an argument gives. -/
def size? (g : Given) (name : String) : Option UInt64 :=
  match g.lookup name with
  | some (.size count) => some count
  | _ => none

/-- Whether there is a value. -/
def has (g : Given) (name : String) : Bool :=
  (g.lookup name).isSome

end Given

end FilterStore.CommandLine
