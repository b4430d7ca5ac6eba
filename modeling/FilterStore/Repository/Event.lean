import FilterStore.Failure

/-!
What the repository reports about its work.

An `Event` says what was done or why nothing was done. `Event.level`, `Event.message` and
`Event.fields` are its form in a log: changes are informative, refusals are for debugging, and
trouble with the database is a warning.
-/

namespace FilterStore

/-- How much an event matters. -/
inductive Level where
  /-- Of use when looking for a mistake. -/
  | debug
  /-- Of interest. -/
  | info
  /-- A sign of trouble. -/
  | warn
  deriving DecidableEq, Repr

/-- Something the repository did, or failed to do. -/
inductive Event where
  /-- The repository was opened. -/
  | opened (path : String)
  /-- A script was stored. -/
  | stored (owner script : String) (size : UInt64)
  /-- A script became the active one. -/
  | activated (owner script : String)
  /-- A script is no longer active. -/
  | deactivated (owner script : String)
  /-- A script was deleted. -/
  | deleted (owner script : String)
  /-- A script was renamed. -/
  | renamed (owner source target : String)
  /-- A quota entry was set. -/
  | quotaSet (key : QuotaKey) (limit : Limit)
  /-- A quota entry was removed. -/
  | quotaRemoved (key : QuotaKey)
  /-- An operation failed and changed nothing. -/
  | failed (operation owner : String) (failure : Failure)
  deriving DecidableEq, Repr

/-- The value of a field. -/
inductive FieldValue where
  /-- A text. -/
  | text (s : String)
  /-- A number. -/
  | number (n : UInt64)
  deriving DecidableEq, Repr

namespace Event

/-- How much the event matters. -/
def level : Event → Level
  | .failed _ _ failure => if failure.isStorage then .warn else .debug
  | _ => .info

/-- The event in a few words. -/
def message : Event → String
  | .opened _ => "opened script repository"
  | .stored _ _ _ => "stored script"
  | .activated _ _ => "activated script"
  | .deactivated _ _ => "deactivated script"
  | .deleted _ _ => "deleted script"
  | .renamed _ _ _ => "renamed script"
  | .quotaSet _ _ => "set quota"
  | .quotaRemoved _ => "removed quota"
  | .failed _ _ failure =>
    if failure.isStorage then "transaction rolled back" else "request refused"

/-- The particulars of the event, by name. -/
def fields : Event → List (String × FieldValue)
  | .opened path => [("path", .text path)]
  | .stored owner script size =>
    [("owner", .text owner), ("script", .text script), ("size", .number size)]
  | .activated owner script | .deactivated owner script | .deleted owner script =>
    [("owner", .text owner), ("script", .text script)]
  | .renamed owner source target =>
    [("owner", .text owner), ("from", .text source), ("to", .text target)]
  | .quotaSet key limit => [("key", .text key.text), ("limit", .text limit.text)]
  | .quotaRemoved key => [("key", .text key.text)]
  | .failed operation owner failure =>
    [("operation", .text operation), ("owner", .text owner), ("error", .text failure.message)]

end Event

end FilterStore
