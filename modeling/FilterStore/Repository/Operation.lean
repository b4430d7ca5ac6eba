import FilterStore.Repository.Method

/-!
The operations of the repository as data.

An `Operation` is a call of one of the seventeen methods with its arguments, and an `Answer` is what
any of them may answer. `Operation.run` calls the method at a given time. `Operation.owner?` is the
owner whose rows the call is about.
-/

namespace FilterStore

/-- A call of a method of the repository. -/
inductive Operation where
  /-- Would so many bytes fit under this name? -/
  | haveSpace (owner name : String) (size : UInt64)
  /-- Store a script. -/
  | put (owner name content : String)
  /-- List the scripts of an owner. -/
  | list (owner : String)
  /-- Get the content of a script. -/
  | get (owner name : String)
  /-- Get the content of the active script. -/
  | getActive (owner : String)
  /-- Get the date of activation of the active script. -/
  | getActivationDate (owner : String)
  /-- Make a script the only active one; the empty name stands for no script. -/
  | setActive (owner name : String)
  /-- Remove a script that is not active. -/
  | delete (owner name : String)
  /-- Move a script to a free name. -/
  | rename (owner source target : String)
  /-- Is there a default quota? -/
  | hasDefaultQuota
  /-- Get the default quota. -/
  | getDefaultQuota
  /-- Set the default quota. -/
  | setDefaultQuota (limit : Limit)
  /-- Remove the default quota. -/
  | removeDefaultQuota
  /-- Does the owner have a quota? -/
  | hasQuota (owner : String)
  /-- Get an owner's quota. -/
  | getQuota (owner : String)
  /-- Set an owner's quota. -/
  | setQuota (owner : String) (limit : Limit)
  /-- Remove an owner's quota. -/
  | removeQuota (owner : String)
  deriving DecidableEq, Repr

/-- What an operation answers. -/
inductive Answer where
  /-- Nothing but success. -/
  | done
  /-- Whether there is one. -/
  | yes (b : Bool)
  /-- A content. -/
  | content (text : String)
  /-- A date. -/
  | date (t : Instant)
  /-- The scripts of an owner. -/
  | listing (scripts : List Summary)
  /-- A limit. -/
  | limit (limit : Limit)
  deriving DecidableEq, Repr

namespace Operation

/-- The owner that the call is about, unless it is about the default quota. -/
def owner? : Operation → Option String
  | .haveSpace owner _ _ | .put owner _ _ | .list owner | .get owner _ | .getActive owner
  | .getActivationDate owner | .setActive owner _ | .delete owner _ | .rename owner _ _
  | .hasQuota owner | .getQuota owner | .setQuota owner _ | .removeQuota owner => some owner
  | .hasDefaultQuota | .getDefaultQuota | .setDefaultQuota _ | .removeDefaultQuota => none

/-- Calls the method. -/
def run (now : Instant) (op : Operation) (db : Database) : Outcome Answer :=
  match op with
  | .haveSpace owner name size => (Repository.haveSpace owner name size db).map fun _ => .done
  | .put owner name content => (Repository.put owner name content db).map fun _ => .done
  | .list owner => (Repository.list owner db).map .listing
  | .get owner name => (Repository.get owner name db).map .content
  | .getActive owner => (Repository.getActive owner db).map .content
  | .getActivationDate owner => (Repository.getActivationDate owner db).map .date
  | .setActive owner name => (Repository.setActive now owner name db).map fun _ => .done
  | .delete owner name => (Repository.delete owner name db).map fun _ => .done
  | .rename owner source target =>
    (Repository.rename owner source target db).map fun _ => .done
  | .hasDefaultQuota => (Repository.hasQuota .default db).map .yes
  | .getDefaultQuota => (Repository.getQuota .default db).map .limit
  | .setDefaultQuota limit => (Repository.setQuota .default limit db).map fun _ => .done
  | .removeDefaultQuota => (Repository.removeQuota .default db).map fun _ => .done
  | .hasQuota owner => (Repository.hasQuota (.owner owner) db).map .yes
  | .getQuota owner => (Repository.getQuota (.owner owner) db).map .limit
  | .setQuota owner limit => (Repository.setQuota (.owner owner) limit db).map fun _ => .done
  | .removeQuota owner => (Repository.removeQuota (.owner owner) db).map fun _ => .done

end Operation

end FilterStore
