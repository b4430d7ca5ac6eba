import FilterStore.Repository.Event
import FilterStore.Store.Action

/-!
The methods of the repository of scripts.

* **Outcomes.** A `Method` takes the database and gives an `Outcome`: a result, what is reported,
  and the database left. `inTransaction` runs an action, reports its failure under the name of the
  operation, and reports success as the caller says. `afterChecks` refuses bad names before
  anything is touched and without report.
* **Scripts.** `put` and `haveSpace` keep each owner within the limit in force, and replacing an
  active script keeps it active. `setActive` makes a script the only active one of its owner; the
  empty name stands for no script. The active script cannot be deleted, and `rename` moves a script
  with its activation and never overwrites.
* **Quotas.** Each owner may have an entry, and `QuotaKey.default` is the entry for the others.
-/

namespace FilterStore

/-! ### Outcomes -/

/-- What a method does: its result, what it reports and the database it leaves. -/
structure Outcome (α : Type) where
  /-- What the method answers, or why it failed. -/
  result : Except Failure α
  /-- What is reported, in order. -/
  events : List Event
  /-- The database afterwards. -/
  database : Database

/-- The outcome with something made of the answer, or a failure in its place. -/
def Outcome.andThen {α β : Type} (o : Outcome α) (f : α → Except Failure β) : Outcome β :=
  ⟨o.result.bind f, o.events, o.database⟩

/-- The outcome with another form of the answer. -/
def Outcome.map {α β : Type} (f : α → β) (o : Outcome α) : Outcome β :=
  ⟨o.result.map f, o.events, o.database⟩

/-- A method of the repository. -/
abbrev Method (α : Type) := Database → Outcome α

namespace Repository

/-- Runs a method if the checks pass. Otherwise the method fails without report. -/
def afterChecks {α : Type} (checks : Except Failure Unit) (method : Method α) : Method α := fun db =>
  match checks with
  | .ok () => method db
  | .error failure => ⟨.error failure, [], db⟩

/-- Runs an action as a transaction, reporting its success as given and its failure under the name
of the operation. -/
def inTransaction {α : Type} (operation owner : String) (act : Action α) (report : α → List Event) :
    Method α := fun db =>
  match transaction act db with
  | .ok a after => ⟨.ok a, report a, after⟩
  | .error failure after => ⟨.error failure, [.failed operation owner failure], after⟩

/-- Reports nothing. -/
def silent {α : Type} (_ : α) : List Event :=
  []

/-- Refuses a text that is not an owner's name. -/
def checkOwner (owner : String) : Except Failure Unit :=
  Name.require .owner owner

/-- Refuses an owner, and then a script, whose text is not a name. -/
def checkScript (owner name : String) : Except Failure Unit := do
  Name.require .owner owner
  Name.require .script name

/-- Takes what was found, or fails. -/
def orFail {α : Type} (failure : Failure) : Option α → Action α
  | some a => pure a
  | none => throw failure

/-! ### Space -/

/-- The bytes of the scripts of other names. -/
def usedBeside (name : String) (scripts : List Script) : UInt64 :=
  ((scripts.filter (·.name ≠ name)).map Script.size).foldl addBounded 0

/-- Fails if `size` bytes under the name would not fit the owner's limit. A script of this name is
about to be replaced and does not count. -/
def checkSpace (owner name : String) (size : UInt64) : Action Unit := do
  let used := usedBeside name (← Action.findAll owner)
  let own ← Action.findLimit (.owner owner)
  let default ← Action.findLimit .default
  let limit := effectiveLimit own default
  if limit.admits used size then
    pure ()
  else
    throw (.quotaExceeded owner used size (limit.bytes?.getD greatestCount))

/-- Fails if `size` bytes under the name would not fit. -/
def haveSpace (owner name : String) (size : UInt64) : Method Unit :=
  afterChecks (checkOwner owner) <|
    inTransaction "have_space" owner (checkSpace owner name size) silent

/-! ### Scripts -/

/-- Stores a content under a name. A script of this name is replaced and keeps its activation. -/
def put (owner name content : String) : Method Unit :=
  afterChecks (checkScript owner name) <|
    inTransaction "put_script" owner
      (do
        let script := Script.fresh owner name content
        checkSpace owner name script.size
        match ← Action.findScript owner name with
        | some previous => Action.upsertScript (script.inheriting previous)
        | none => Action.upsertScript script)
      fun _ => [.stored owner name (contentSize content)]

/-- The scripts of an owner, in the order of names. -/
def list (owner : String) : Method (List Summary) :=
  afterChecks (checkOwner owner) <|
    inTransaction "list_scripts" owner
      (do return (← Action.findAll owner).map Script.summary) silent

/-- The content of a script. -/
def get (owner name : String) : Method String :=
  afterChecks (checkOwner owner) <|
    inTransaction "get_script" owner
      (do
        let script ← Action.findScript owner name >>= orFail (.scriptNotFound name owner)
        return script.content)
      silent

/-- The active script of an owner. -/
def active (owner : String) : Method Script :=
  afterChecks (checkOwner owner) <|
    inTransaction "get_active" owner
      (Action.findActive owner >>= orFail (.noActiveScript owner)) silent

/-- The content of the active script. -/
def getActive (owner : String) : Method String := fun db =>
  (active owner db).map Script.content

/-- The date of activation of the active script. -/
def getActivationDate (owner : String) : Method Instant := fun db =>
  (active owner db).andThen fun script =>
    match script.activatedAt with
    | some date => .ok date
    | none => .error (.noActiveScript owner)

/-- The writes that make a script the only active one: first the active script of another name goes
off, so that at no time two are on. -/
def switchOver (now : Instant) (target : Script) (current : Option Script) : List Script :=
  match current with
  | some other =>
    if other.name = target.name then [target.activate now]
    else [other.deactivate, target.activate now]
  | none => [target.activate now]

/-- Makes a script the only active one of its owner. -/
def activate (now : Instant) (owner name : String) : Method Unit :=
  inTransaction "set_active" owner
    (do
      let target ← Action.findScript owner name >>= orFail (.scriptNotFound name owner)
      let current ← Action.findActive owner
      (switchOver now target current).forM Action.upsertScript)
    fun _ => [.activated owner name]

/-- Switches the active script off and tells its name, if there is one. -/
def switchOff (owner : String) : Action (Option String) := do
  match ← Action.findActive owner with
  | none => return none
  | some script =>
    Action.upsertScript script.deactivate
    return some script.name

/-- Switches the active script off, if there is one. -/
def deactivate (owner : String) : Method Unit := fun db =>
  (inTransaction "set_active" owner (switchOff owner)
    (fun name => (name.map (Event.deactivated owner)).toList) db).map fun _ => ()

/-- Makes a script the only active one of its owner; the empty name stands for no script. -/
def setActive (now : Instant) (owner name : String) : Method Unit :=
  afterChecks (checkOwner owner) <|
    if name = Name.noScript then deactivate owner else activate now owner name

/-- Removes a script that is not active. -/
def delete (owner name : String) : Method Unit :=
  afterChecks (checkOwner owner) <|
    inTransaction "delete_script" owner
      (do
        let script ← Action.findScript owner name >>= orFail (.scriptNotFound name owner)
        if script.active then
          throw (.scriptActive name owner)
        else
          discard (Action.deleteScript owner name))
      fun _ => [.deleted owner name]

/-- Moves a script to a name that is free. -/
def rename (owner source target : String) : Method Unit :=
  afterChecks (checkScript owner target) <|
    inTransaction "rename_script" owner
      (do
        let script ← Action.findScript owner source >>= orFail (.scriptNotFound source owner)
        match ← Action.findScript owner target with
        | some _ => throw (.nameTaken target owner)
        | none =>
          discard (Action.deleteScript owner source)
          Action.upsertScript (script.renamed target))
      fun _ => [.renamed owner source target]

/-! ### Quotas -/

/-- The check of the owner that a key names, if it names one. -/
def checkKey : QuotaKey → Except Failure Unit
  | .default => .ok ()
  | .owner name => checkOwner name

/-- Whether there is an entry. -/
def hasQuota (key : QuotaKey) : Method Bool :=
  afterChecks (checkKey key) <|
    inTransaction "has_quota" key.storageKey
      (do return (← Action.findLimit key).isSome) silent

/-- The limit of an entry. -/
def getQuota (key : QuotaKey) : Method Limit :=
  afterChecks (checkKey key) <|
    inTransaction "get_quota" key.storageKey
      (Action.findLimit key >>= orFail (.quotaNotFound key)) silent

/-- Sets an entry. -/
def setQuota (key : QuotaKey) (limit : Limit) : Method Unit :=
  afterChecks (checkKey key) <|
    inTransaction "set_quota" key.storageKey
      (Action.upsertLimit key limit) fun _ => [.quotaSet key limit]

/-- Removes an entry, if there is one. -/
def removeQuota (key : QuotaKey) : Method Unit :=
  afterChecks (checkKey key) fun db =>
    (inTransaction "remove_quota" key.storageKey (Action.deleteLimit key)
      (fun removed => if removed then [.quotaRemoved key] else []) db).map fun _ => ()

end Repository

end FilterStore
