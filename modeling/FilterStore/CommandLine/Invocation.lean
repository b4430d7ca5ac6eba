import FilterStore.CommandLine.Scan
import FilterStore.CommandLine.Task

/-!
Command lines and what they ask for.

* **Invocations.** An `Invocation` is a command with the places of the data directory and of the
  settings file, if they are given.
* **Commands.** A `Leaf` is a command without further commands: its grammar, and what is made of
  the values given. `scriptLeaves` and `quotaLeaves` are the commands of the two groups.
* **Reading.** `Invocation.ofWords` takes the words of a command line behind the name of the
  program. The places may be given behind any of its words, and the innermost ones count. What is
  wrong further in is found first.
-/

namespace FilterStore.CommandLine

/-! ### Invocations -/

/-- What may be given with every command. -/
structure Places where
  /-- The data directory. -/
  dataDir : Option String
  /-- The settings file. -/
  config : Option String
  deriving DecidableEq, Repr

namespace Places

/-- The options by which places are given. -/
def options : List Opt :=
  [.valued "data-dir" "DATA_DIR" .text, .valued "config" "CONFIG" .path]

/-- The places among the values given. -/
def ofGiven (g : Given) : Places :=
  ⟨g.text? "data-dir", g.text? "config"⟩

/-- Places, and others where they are missing. -/
def orElse (inner outer : Places) : Places :=
  ⟨inner.dataDir <|> outer.dataDir, inner.config <|> outer.config⟩

end Places

/-- A command. -/
inductive Command where
  /-- Make the data directory and the database. -/
  | init
  /-- Do something with the repository. -/
  | task (task : Task)
  deriving DecidableEq, Repr

/-- What a command line asks for. -/
structure Invocation where
  /-- The places that are given. -/
  places : Places
  /-- The command. -/
  command : Command
  deriving DecidableEq, Repr

/-! ### Commands -/

/-- A command without further commands. -/
structure Leaf (α : Type) where
  /-- Its name. -/
  name : String
  /-- What it does, in a few words. -/
  about : String
  /-- Its arguments, all of them needed. -/
  arguments : List Argument
  /-- Its own options. -/
  options : List Opt
  /-- What the values given ask for, unless one is missing. -/
  build : Given → Option α

/-- The grammar of a command behind the words of its group. -/
def Leaf.grammar {α : Type} (leaf : Leaf α) (group : String) : Grammar :=
  ⟨group ++ " " ++ leaf.name, leaf.about, [], leaf.arguments, leaf.options ++ Places.options⟩

/-- The owner of scripts. -/
def ownerArgument : Argument :=
  ⟨"owner", "OWNER", .text⟩

/-- The name of a script. -/
def nameArgument : Argument :=
  ⟨"name", "NAME", .text⟩

/-- The options of a command that needs consent. -/
def consentOptions : List Opt :=
  [.flag "non-interactive" none, .flag "yes" (some 'y')]

/-- The consent that is given. -/
def Consent.ofGiven (g : Given) : Consent :=
  ⟨g.has "yes", g.has "non-interactive"⟩

/-- The option that names the owner of a quota. -/
def ownerOption : Opt :=
  .valued "owner" "OWNER" .text

/-- The quota entry that is meant: the one of the owner given, else the default entry. -/
def keyOfGiven (g : Given) : QuotaKey :=
  match g.text? "owner" with
  | some owner => .owner owner
  | none => .default

/-- The command that makes a database. -/
def initLeaf : Leaf Command :=
  ⟨"init", "Create the data directory and database", [], [], fun _ => some .init⟩

/-- The commands on scripts. -/
def scriptLeaves : List (Leaf Task) :=
  [⟨"put", "Store a script, replacing any script with the same name", [ownerArgument, nameArgument],
      [.valued "file" "FILE" .path],
      fun g => do return .put (← g.text? "owner") (← g.text? "name") (g.text? "file")⟩,
    ⟨"get", "Print a script's content", [ownerArgument, nameArgument], [],
      fun g => do return .get (← g.text? "owner") (← g.text? "name")⟩,
    ⟨"list", "List an owner's scripts", [ownerArgument], [.flag "json" none],
      fun g => do return .list (← g.text? "owner") (g.has "json")⟩,
    ⟨"active", "Print the active script", [ownerArgument], [.flag "date" none],
      fun g => do return .active (← g.text? "owner") (g.has "date")⟩,
    ⟨"activate", "Make a script the active one", [ownerArgument, nameArgument], [],
      fun g => do return .activate (← g.text? "owner") (← g.text? "name")⟩,
    ⟨"deactivate", "Switch off the active script", [ownerArgument], [],
      fun g => do return .deactivate (← g.text? "owner")⟩,
    ⟨"delete", "Delete an inactive script", [ownerArgument, nameArgument], consentOptions,
      fun g => do return .delete (← g.text? "owner") (← g.text? "name") (.ofGiven g)⟩,
    ⟨"rename", "Rename a script",
      [ownerArgument, ⟨"old-name", "OLD_NAME", .text⟩, ⟨"new-name", "NEW_NAME", .text⟩], [],
      fun g => do
        return .rename (← g.text? "owner") (← g.text? "old-name") (← g.text? "new-name")⟩,
    ⟨"check", "Check whether a script of the given size would fit in the quota",
      [ownerArgument, nameArgument, ⟨"size", "SIZE", .size⟩], [],
      fun g => do return .check (← g.text? "owner") (← g.text? "name") (← g.size? "size")⟩]

/-- The commands on quotas. -/
def quotaLeaves : List (Leaf Task) :=
  [⟨"get", "Print a quota", [], [ownerOption], fun g => some (.getQuota (keyOfGiven g))⟩,
    ⟨"set", "Set a quota", [⟨"limit", "LIMIT", .limit⟩], [ownerOption],
      fun g => do return .setQuota (keyOfGiven g) (← g.limit? "limit")⟩,
    ⟨"remove", "Remove a quota", [], ownerOption :: consentOptions,
      fun g => some (.removeQuota (keyOfGiven g) (.ofGiven g))⟩]

/-- The command that shows help on other commands. -/
def helpName : String :=
  "help"

/-- The name of the program. -/
def programName : String :=
  "sievekeeper"

/-- The grammar of the program. -/
def rootGrammar : Grammar :=
  ⟨programName, "Manage per-user mail filtering scripts and quotas",
    [initLeaf.name, "script", "quota", helpName], [], Places.options⟩

/-- The grammar of a group of commands. -/
def groupGrammar (name about : String) (leaves : List (Leaf Task)) : Grammar :=
  ⟨programName ++ " " ++ name, about, leaves.map Leaf.name ++ [helpName], [], Places.options⟩

/-- The grammar of the commands on scripts. -/
def scriptGrammar : Grammar :=
  groupGrammar "script" "Manage scripts" scriptLeaves

/-- The grammar of the commands on quotas. -/
def quotaGrammar : Grammar :=
  groupGrammar "quota" "Manage quotas" quotaLeaves

/-! ### Help -/

/-- What there is help on: the words of each command, and what the command does. -/
def topics : List (List String × String) :=
  let about (group : List String) {α : Type} (leaf : Leaf α) := (group ++ [leaf.name], leaf.about)
  let help (group : List String) := (group ++ [helpName], "Print help on a command")
  [([], rootGrammar.about), about [] initLeaf, help [], (["script"], scriptGrammar.about),
    help ["script"], (["quota"], quotaGrammar.about), help ["quota"]] ++
  scriptLeaves.map (about ["script"]) ++ quotaLeaves.map (about ["quota"])

/-- Help on the command that the words lead to, from a command on. -/
def helpOn (command : List String) : List String → Stop
  | [] => .help ((topics.lookup command).getD "" ++ "\n")
  | word :: rest =>
    if (topics.lookup (command ++ [word])).isSome then helpOn (command ++ [word]) rest
    else .fault (.unknownCommand word)

/-! ### Reading -/

/-- Reads the words behind the name of a command. -/
def Leaf.ofWords {α : Type} (leaf : Leaf α) (group : String) (words : List String) :
    Except Stop (Places × α) := do
  let g := leaf.grammar group
  let (p, _) ← g.scan (.start g) words
  let p ← p.settle
  match leaf.build p.given with
  | some a => return (.ofGiven p.given, a)
  | none => throw (.fault .missingArguments)

/-- What is said where a command is missing: if nothing at all was given, what could be done. -/
def Grammar.withoutCommand (g : Grammar) (p : Progress) : Stop :=
  if p.given = [] then .nothingAsked g.about else .fault (.missingCommand g.program)

/-- Reads the words behind the name of a group. -/
def taskOfWords (g : Grammar) (name : String) (leaves : List (Leaf Task)) (words : List String) :
    Except Stop (Places × Task) := do
  match ← g.scan (.start g) words with
  | (p, none) => throw (g.withoutCommand (← p.settle))
  | (p, some (word, rest)) =>
    match leaves.find? fun leaf => leaf.name = word with
    | none => throw (helpOn [name] rest)
    | some leaf =>
      let (inner, task) ← leaf.ofWords g.program rest
      return (inner.orElse (.ofGiven (← p.settle).given), task)

/-- Reads the words behind the name of a command of the program. -/
def commandOfWords (word : String) (rest : List String) : Except Stop (Places × Command) :=
  match word with
  | "init" => initLeaf.ofWords programName rest
  | "script" => (taskOfWords scriptGrammar word scriptLeaves rest).map (·.map id .task)
  | "quota" => (taskOfWords quotaGrammar word quotaLeaves rest).map (·.map id .task)
  | _ => .error (helpOn [] rest)

/-- Reads the words of a command line. -/
def Invocation.ofWords (words : List String) : Except Stop Invocation := do
  match ← rootGrammar.scan (.start rootGrammar) words with
  | (p, none) => throw (rootGrammar.withoutCommand (← p.settle))
  | (p, some (word, rest)) =>
    let (inner, command) ← commandOfWords word rest
    return ⟨inner.orElse (.ofGiven (← p.settle).given), command⟩

end FilterStore.CommandLine
