import FilterStore.Repository.Operation
import FilterStore.Store.Step

/-!
Sessions: everything that clients of one database may do, one request after another.

A `Request` is an operation of the repository, a statement on its own, a batch of statements, or the
setting up or reopening of the database, which finds the tables in place and leaves them. Clients
share the database, so a session is one list of requests in the order in which they are served;
`Request.run` serves one, and `runSession` all of them, each on what the earlier ones left.
-/

namespace FilterStore

/-- Something a client asks for. -/
inductive Request where
  /-- An operation of the repository. -/
  | operation (op : Operation)
  /-- One statement on its own. -/
  | statement (step : StoreStep)
  /-- Statements in one transaction, with an optional failure of the client's at the end. -/
  | batch (steps : List StoreStep) (final : Option Failure)
  /-- Set the tables up. -/
  | setUp
  /-- Close the database and open it again. -/
  | reopen (path : String)
  deriving DecidableEq, Repr

/-- What a request answers. -/
inductive Reply where
  /-- The answer of an operation. -/
  | operation (answer : Answer)
  /-- The answer of a statement. -/
  | statement (answer : StoreAnswer)
  /-- Nothing but success. -/
  | done
  deriving DecidableEq, Repr

/-- What a request does. -/
structure Response where
  /-- The reply, or why the request failed. -/
  result : Except Failure Reply
  /-- The answers of the statements of a batch. -/
  inner : List StepResult
  /-- What is reported. -/
  events : List Event
  /-- The database afterwards. -/
  database : Database

/-- Serves a request at a given time. -/
def Request.run (now : Instant) (request : Request) (db : Database) : Response :=
  match request with
  | .operation op =>
    let o := op.run now db
    ⟨o.result.map .operation, [], o.events, o.database⟩
  | .statement step =>
    match transaction step.act db with
    | .ok answer after => ⟨.ok (.statement answer), [], [], after⟩
    | .error failure after => ⟨.error failure, [], [], after⟩
  | .batch steps final =>
    let o := runBatch steps final db
    ⟨o.result.map fun _ => .done, o.answers, [], o.database⟩
  | .setUp => ⟨.ok .done, [], [], db⟩
  | .reopen path => ⟨.ok .done, [], [.opened path], db⟩

/-- Serves requests in order, each at its own time. -/
def runSession : List (Instant × Request) → Database → List Response × Database
  | [], db => ([], db)
  | (now, request) :: rest, db =>
    let response := request.run now db
    let (responses, after) := runSession rest response.database
    (response :: responses, after)

end FilterStore
