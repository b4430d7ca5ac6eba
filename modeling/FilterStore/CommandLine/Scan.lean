import FilterStore.CommandLine.Argument

/-!
Going through the words of a command line.

* **Words.** `Lexeme.ofWord` tells two dashes alone, an option by name, perhaps with a value
  attached, options by letters, and all other words.
* **Grammars.** A `Grammar` is what may stand behind the words of a command: further commands,
  arguments in their order, and options. A group of commands has no arguments of its own.
* **Progress.** A value is read when the next word makes sure that it is complete, so of two faults
  the earlier one is found first, but a word that cannot stand where it is comes before all values
  that are not read yet. Behind two dashes every word is an argument.
* **Going through.** `Grammar.scan` takes words until they end, or up to the name of a further
  command.
-/

namespace FilterStore.CommandLine

/-! ### Words -/

/-- What a word looks like. -/
inductive Lexeme where
  /-- Two dashes: no options follow. -/
  | dashes
  /-- An option by name, with the value behind its equality sign. -/
  | long (name : String) (attached : Option String)
  /-- Options by letters. -/
  | short (letters : List Char)
  /-- Any other word. -/
  | plain
  deriving DecidableEq, Repr

/-- The value behind an equality sign. -/
def attached? : List Char → Option String
  | '=' :: cs => some (String.ofList cs)
  | _ => none

/-- Tells what a word looks like. A dash alone is like any other word. -/
def Lexeme.ofWord (word : String) : Lexeme :=
  match word.toList with
  | ['-', '-'] => .dashes
  | '-' :: '-' :: cs =>
    .long (String.ofList (cs.takeWhile (· ≠ '='))) (attached? (cs.dropWhile (· ≠ '=')))
  | '-' :: c :: cs => .short (c :: cs)
  | _ => .plain

/-! ### Grammars -/

/-- What may stand behind the words of a command. -/
structure Grammar where
  /-- The words so far. -/
  program : String
  /-- What is done, in a few words. -/
  about : String
  /-- The names of further commands. -/
  commands : List String
  /-- The arguments, in order. -/
  arguments : List Argument
  /-- The options. -/
  options : List Opt
  deriving DecidableEq, Repr

/-- The option that asks for help. -/
def helpFlag : Opt :=
  .flag "help" (some 'h')

namespace Grammar

/-- What is shown to those who ask for help. -/
def helpText (g : Grammar) : String :=
  g.about ++ "\n"

/-- The option of a name. -/
def byName? (g : Grammar) (name : String) : Option Opt :=
  (helpFlag :: g.options).find? fun o => o.name = name

/-- The option of a letter. -/
def byLetter? (g : Grammar) (letter : Char) : Option Opt :=
  (helpFlag :: g.options).find? fun o => o.letter? = some letter

end Grammar

/-! ### Progress -/

/-- What was named last and is not read yet. -/
inductive Pending where
  /-- Nothing. -/
  | nothing
  /-- An argument and its text. -/
  | argument (a : Argument) (text : String)
  /-- An option whose value is still to come. -/
  | awaiting (name label : String) (form : Form)
  /-- An option and the text of its value. -/
  | option (name label : String) (form : Form) (text : String)
  deriving DecidableEq, Repr

/-- How far the words behind a command have been taken. -/
structure Progress where
  /-- The values read. -/
  given : Given
  /-- What is not read yet. -/
  pending : Pending
  /-- The arguments without a text so far. -/
  unfilled : List Argument
  /-- Whether two dashes were met. -/
  onlyArguments : Bool
  deriving DecidableEq, Repr

namespace Progress

/-- Nothing is taken yet. -/
def start (g : Grammar) : Progress :=
  ⟨[], .nothing, g.arguments, false⟩

/-- Whether an option waits for its value. -/
def isAwaiting (p : Progress) : Bool :=
  match p.pending with
  | .awaiting _ _ _ => true
  | _ => false

/-- Adds a value that a name may have once. -/
def add (p : Progress) (name label : String) (read : Except UsageFault Value) :
    Except Stop Progress :=
  if p.given.has name then .error (.fault (.repeated label))
  else
    match read with
    | .ok value => .ok { p with given := (name, value) :: p.given, pending := .nothing }
    | .error fault => .error (.fault fault)

/-- Reads what is not read yet. -/
def settle (p : Progress) : Except Stop Progress :=
  match p.pending with
  | .nothing => .ok p
  | .argument a text => p.add a.name a.label (a.form.read a.label text)
  | .awaiting _ label _ => .error (.fault (.missingValue label))
  | .option name label form text => p.add name label (form.read label text)

end Progress

/-! ### Going through -/

namespace Grammar

/-- Takes a flag. -/
def raise (g : Grammar) (p : Progress) (name : String) : Except Stop Progress := do
  let p ← p.settle
  if name = helpFlag.name then throw (.help g.helpText)
  else p.add name ("--" ++ name) (.ok .raised)

/-- Takes options by letters. -/
def takeLetters (g : Grammar) (p : Progress) : List Char → Except Stop Progress
  | [] => .ok p
  | c :: cs =>
    match g.byLetter? c with
    | some o => do takeLetters g (← g.raise p o.name) cs
    | none => .error (.fault (.unexpectedArgument (String.ofList ['-', c])))

/-- Takes an option by name. -/
def takeOption (g : Grammar) (p : Progress) (name : String) (attached : Option String) :
    Except Stop Progress :=
  match g.byName? name, attached with
  | none, _ => .error (.fault (.unexpectedArgument ("--" ++ name)))
  | some (.flag name _), none => g.raise p name
  | some o@(.flag _ _), some value => .error (.fault (.excessValue value o.label))
  | some o@(.valued name _ form), none => do
    return { (← p.settle) with pending := .awaiting name o.label form }
  | some o@(.valued name _ form), some value => do
    (← p.settle).add name o.label (form.read o.label value)

/-- Takes a word as the next argument. -/
def takeArgument (g : Grammar) (p : Progress) (word : String) : Except Stop Progress :=
  match p.unfilled with
  | a :: rest => do return { (← p.settle) with pending := .argument a word, unfilled := rest }
  | [] =>
    if g.commands = [] ∨ (p.onlyArguments ∧ word ∈ g.commands) then
      .error (.fault (.unexpectedArgument word))
    else .error (.fault (.unknownCommand word))

/-- Takes a word that is no command. -/
def take (g : Grammar) (p : Progress) (word : String) : Except Stop Progress :=
  if p.onlyArguments then g.takeArgument p word
  else
    match Lexeme.ofWord word with
    | .dashes => .ok { p with onlyArguments := true }
    | .long name attached => g.takeOption p name attached
    | .short letters => g.takeLetters p letters
    | .plain =>
      match p.pending with
      | .awaiting name label form => .ok { p with pending := .option name label form word }
      | _ => g.takeArgument p word

/-- Takes words up to the name of a command, which is given with the words behind it. -/
def scan (g : Grammar) (p : Progress) :
    List String → Except Stop (Progress × Option (String × List String))
  | [] => .ok (p, none)
  | word :: rest =>
    if word ∈ g.commands ∧ ¬ p.onlyArguments ∧ ¬ p.isAwaiting then
      .ok (p, some (word, rest))
    else do g.scan (← g.take p word) rest

end Grammar

end FilterStore.CommandLine
