import FilterStore.Proofs.Repository.Commutation

/-!
Clients whose steps are served in another order.

* **Calls.** A `ClientCall` is an operation that a client asks for at some time. `answersTo` are the
  answers that a client gets while the calls of all clients are served in one order.
* **Exchanges.** `Exchange` puts two neighbouring calls of different clients in the other order, if
  they are independent in the database in which they are served.
* **Every session.** In the databases that sessions of the library lead to independent operations
  commute, so exchanges change neither an answer nor the database in the end
  (`commutes_runSession`).
-/

namespace FilterStore

/-! ### Calls -/

/-- An operation that a client asks for. -/
structure ClientCall where
  /-- Who asks. -/
  client : String
  /-- When it is served. -/
  time : Instant
  /-- What is asked for. -/
  op : Operation

namespace ClientCall

/-- The call as a request of a session. -/
def request (call : ClientCall) : Instant × Request :=
  (call.time, .operation call.op)

/-- The call is made in the years 0 to 9999, and its contents can be held in memory. -/
def Proper (call : ClientCall) : Prop :=
  call.time.HasPlainYear ∧ call.op.Fits

end ClientCall

/-- The database after calls were served in order. -/
def databaseAfter (calls : List ClientCall) (db : Database) : Database :=
  (runSession (calls.map ClientCall.request) db).2

/-- The answers that a client gets while calls are served in order. -/
def answersTo (client : String) (calls : List ClientCall) (db : Database) :
    List (Except Failure Reply) :=
  ((calls.zip (runSession (calls.map ClientCall.request) db).1).filter
    fun served => served.1.client = client).map fun served => served.2.result

/-- The answer to one call, as far as it is the client's. -/
def answerTo (client : String) (call : ClientCall) (db : Database) : List (Except Failure Reply) :=
  if call.client = client then [(call.op.run call.time db).result.map Reply.operation] else []

variable {client : String} {db : Database} {calls calls' : List ClientCall}

lemma databaseAfter_cons (call : ClientCall) (rest : List ClientCall) (db : Database) :
    databaseAfter (call :: rest) db = databaseAfter rest (call.op.run call.time db).database :=
  rfl

lemma answersTo_cons (client : String) (call : ClientCall) (rest : List ClientCall)
    (db : Database) :
    answersTo client (call :: rest) db =
      answerTo client call db ++ answersTo client rest (call.op.run call.time db).database := by
  have hzip : (call :: rest).zip (runSession ((call :: rest).map ClientCall.request) db).1 =
      (call, (call.request.2.run call.request.1 db)) ::
        rest.zip (runSession (rest.map ClientCall.request)
          (call.op.run call.time db).database).1 := rfl
  rw [answersTo, hzip, answerTo]
  by_cases hclient : call.client = client
  · rw [List.filter_cons_of_pos (by simpa using hclient), if_pos hclient]
    rfl
  · rw [List.filter_cons_of_neg (by simpa using hclient), if_neg hclient]
    rfl

lemma databaseAfter_append (first second : List ClientCall) (db : Database) :
    databaseAfter (first ++ second) db = databaseAfter second (databaseAfter first db) := by
  induction first generalizing db with
  | nil => rfl
  | cons call rest ih => exact ih (call.op.run call.time db).database

lemma answersTo_append (client : String) (first second : List ClientCall) (db : Database) :
    answersTo client (first ++ second) db =
      answersTo client first db ++ answersTo client second (databaseAfter first db) := by
  induction first generalizing db with
  | nil => rfl
  | cons call rest ih =>
      rw [List.cons_append, answersTo_cons, answersTo_cons, ih, List.append_assoc,
        databaseAfter_cons]

/-! ### Exchanges -/

/-- Two neighbouring calls of different clients change places. They are independent where they are
served. -/
inductive Exchange (db : Database) : List ClientCall → List ClientCall → Prop where
  /-- The calls before and behind stay. -/
  | swap {before behind : List ClientCall} {x y : ClientCall} (clients : x.client ≠ y.client)
      (independent : Operation.Independent (databaseAfter before db) x.op y.op ∨
        Operation.Independent (databaseAfter before db) y.op x.op) :
      Exchange db (before ++ x :: y :: behind) (before ++ y :: x :: behind)

/-- Operations of different clients that commute are answered the same in the other order. -/
lemma answersTo_swap {x y : ClientCall} (hne : x.client ≠ y.client)
    (h : Operation.Commutes x.time x.op y.time y.op db) (client : String)
    (behind : List ClientCall) :
    answersTo client (x :: y :: behind) db = answersTo client (y :: x :: behind) db := by
  have hx : answerTo client x (y.op.run y.time db).database = answerTo client x db := by
    rw [answerTo, answerTo, h.first]
  have hy : answerTo client y (x.op.run x.time db).database = answerTo client y db := by
    rw [answerTo, answerTo, h.second]
  rw [answersTo_cons, answersTo_cons, answersTo_cons, answersTo_cons, hx, hy, h.database,
    ← List.append_assoc, ← List.append_assoc]
  congr 1
  -- one of the two answers is not the client's
  by_cases hclient : x.client = client
  · have hother : y.client ≠ client := hclient ▸ hne.symm
    simp only [answerTo, if_neg hother, List.append_nil, List.nil_append]
  · simp only [answerTo, if_neg hclient, List.append_nil, List.nil_append]

/-! ### Databases of the library -/

/-- The database keeps the promises of the library, and holds what some machine holds. -/
def Database.Settled (db : Database) : Prop :=
  db.Sound ∧ ∃ m, Represents db m

lemma Database.Settled.run (h : db.Settled) {call : ClientCall} (hcall : call.Proper) :
    (call.op.run call.time db).database.Settled := by
  obtain ⟨hdb, m, hm⟩ := h
  refine ⟨Operation.sound_run hdb hcall.2 hcall.1, ?_⟩
  have hstep := Operation.refines_run hm hcall.1 hcall.2
  cases hperform : m.perform call.time call.op with
  | error e =>
      rw [hperform] at hstep
      exact ⟨m, hstep.2⟩
  | ok done =>
      rw [hperform] at hstep
      exact ⟨done.2, hstep.2⟩

lemma Database.Settled.databaseAfter (h : db.Settled) (hcalls : ∀ call ∈ calls, call.Proper) :
    (databaseAfter calls db).Settled := by
  induction calls generalizing db with
  | nil => exact h
  | cons call rest ih =>
      exact ih (h.run (hcalls call List.mem_cons_self))
        fun next hnext => hcalls next (List.mem_cons_of_mem call hnext)

/-- Sessions of the library lead to such databases. -/
lemma settled_runSession {session : List (Instant × Request)}
    (hlib : ∀ call ∈ session, call.1.HasPlainYear ∧ call.2.OfLibrary) :
    (runSession session .empty).2.Settled := by
  obtain ⟨m, hm, -⟩ := History.records_runSession hlib .start History.records_start
  exact ⟨(sound_runSession hlib).1, m, hm⟩

/-- An exchange changes neither the answers to a client nor the database in the end. -/
lemma Exchange.same (h : Exchange db calls calls') (hdb : db.Settled)
    (hcalls : ∀ call ∈ calls, call.Proper) :
    (∀ client, answersTo client calls db = answersTo client calls' db) ∧
      databaseAfter calls db = databaseAfter calls' db := by
  cases h with
  | @swap before behind x y clients independent =>
      have hbefore : ∀ call ∈ before, call.Proper := fun call hcall =>
        hcalls call (List.mem_append_left _ hcall)
      have hx : x.Proper := hcalls x (by simp)
      have hy : y.Proper := hcalls y (by simp)
      obtain ⟨hsound, m, hm⟩ := hdb.databaseAfter hbefore
      have hcommutes : Operation.Commutes x.time x.op y.time y.op (databaseAfter before db) :=
        independent.elim (fun h => h.commutes hm hsound hx.1 hy.1 hy.2)
          fun h => (h.commutes hm hsound hy.1 hx.1 hx.2).symm
      constructor
      · intro client
        rw [answersTo_append, answersTo_append, answersTo_swap clients hcommutes]
      · rw [databaseAfter_append, databaseAfter_append, databaseAfter_cons, databaseAfter_cons,
          databaseAfter_cons, databaseAfter_cons, hcommutes.database]

/-- An exchange keeps the calls. -/
lemma Exchange.mem_iff (h : Exchange db calls calls') (call : ClientCall) :
    call ∈ calls ↔ call ∈ calls' := by
  cases h with
  | swap clients independent => exact (List.Perm.append_left _ (.swap _ _ _)).mem_iff

/-- Exchanges one after another change neither the answers to a client nor the database in the
end. -/
lemma same_of_exchanges (h : Relation.ReflTransGen (Exchange db) calls calls') (hdb : db.Settled)
    (hcalls : ∀ call ∈ calls, call.Proper) :
    (∀ client, answersTo client calls db = answersTo client calls' db) ∧
      databaseAfter calls db = databaseAfter calls' db := by
  induction h using Relation.ReflTransGen.head_induction_on with
  | refl => exact ⟨fun _ => rfl, rfl⟩
  | head first _ ih =>
      obtain ⟨hanswers, hafter⟩ := first.same hdb hcalls
      obtain ⟨hanswers', hafter'⟩ :=
        ih fun call hcall => hcalls call ((first.mem_iff call).mpr hcall)
      exact ⟨fun client => (hanswers client).trans (hanswers' client), hafter.trans hafter'⟩

/-! ### Every session -/

/-- **Either order**: in every database that a session of the library leads to from the empty one,
two independent operations, each at its own time, answer the same in either order and lead to the
same database; if they are called with different owners this is so at every time on the clock and
for all contents. Exchanging such neighbours among the calls of several clients any number of times
changes neither the answers that any client gets nor the database in the end. -/
theorem commutes_runSession {session : List (Instant × Request)}
    (hlib : ∀ call ∈ session, call.1.HasPlainYear ∧ call.2.OfLibrary) :
    let db := (runSession session .empty).2
    (∀ (x y : Operation) (tx ty : Instant),
      (∃ a b, x.owner? = some a ∧ y.owner? = some b ∧ a ≠ b) ∨
        (x.Independent db y ∧ tx.HasPlainYear ∧ ty.HasPlainYear ∧ y.Fits) →
      x.Commutes tx ty y db) ∧
    ∀ calls calls' : List ClientCall, (∀ call ∈ calls, call.Proper) →
      Relation.ReflTransGen (Exchange db) calls calls' →
        (∀ client, answersTo client calls db = answersTo client calls' db) ∧
          databaseAfter calls db = databaseAfter calls' db := by
  intro db
  have hdb : db.Settled := settled_runSession hlib
  constructor
  · intro x y tx ty hpair
    obtain ⟨hsound, m, hm⟩ := hdb
    rcases hpair with ⟨a, b, hx, hy, hne⟩ | ⟨hind, htx, hty, hfit⟩
    · exact Operation.commutes_of_owners hsound.schema hx hy hne
    · exact hind.commutes hm hsound htx hty hfit
  · intro calls calls' hcalls hexchanges
    exact same_of_exchanges hexchanges hdb hcalls

/-- A script of `ann` is activated by one client while another one stores a content under its name,
and a third one stores a script of `bob`; the activation moves from the first place to the last. -/
theorem commutes_runSession_moved :
    let session : List (Instant × Request) :=
      [(.epoch, .setUp), (.epoch, .operation (.put "ann" "day" "keep;"))]
    let db := (runSession session .empty).2
    let activate : ClientCall := ⟨"one", .epoch, .setActive "ann" "day"⟩
    let replace : ClientCall := ⟨"two", .epoch, .put "ann" "day" "stop;"⟩
    let other : ClientCall := ⟨"three", .epoch, .put "bob" "day" "keep;"⟩
    activate.op.Commutes activate.time replace.time replace.op db ∧
      (∀ client, answersTo client [activate, replace, other] db =
        answersTo client [replace, other, activate] db) ∧
      databaseAfter [activate, replace, other] db = databaseAfter [replace, other, activate] db ∧
      (databaseAfter [activate, replace, other] db).scripts =
        [⟨"ann", "day", "stop;", 5, 1, some "1970-01-01T00:00:00+00:00"⟩,
          ⟨"bob", "day", "keep;", 5, 0, none⟩] := by
  intro session db activate replace other
  have hnow := Instant.hasPlainYear_epoch
  have hkeep : "keep;".utf8ByteSize < columnBound := by decide +kernel
  have hstop : "stop;".utf8ByteSize < columnBound := by decide +kernel
  have hlib : ∀ call ∈ session, call.1.HasPlainYear ∧ call.2.OfLibrary := by
    simp only [session, List.forall_mem_cons]
    exact ⟨⟨hnow, trivial⟩, ⟨hnow, hkeep⟩, List.forall_mem_nil _⟩
  have hcalls : ∀ call ∈ [activate, replace, other], call.Proper := by
    simp only [List.forall_mem_cons]
    exact ⟨⟨hnow, trivial⟩, ⟨hnow, hstop⟩, ⟨hnow, hkeep⟩, List.forall_mem_nil _⟩
  have hheld : db.HasScript "ann" "day" := by
    have hrows : db.scripts = [⟨"ann", "day", "keep;", 5, 0, none⟩] := by decide +kernel
    rw [Database.HasScript, hrows]
    exact ⟨_, List.mem_singleton_self _, rfl, rfl⟩
  have hsame : Operation.Independent db activate.op replace.op := .active (.inr hheld) rfl
  have hother : Operation.Independent (databaseAfter [replace] db) activate.op other.op :=
    .owners rfl rfl (by decide)
  have hfirst : Exchange db [activate, replace, other] [replace, activate, other] :=
    @Exchange.swap db [] [other] activate replace (by decide) (.inl hsame)
  have hsecond : Exchange db [replace, activate, other] [replace, other, activate] :=
    @Exchange.swap db [replace] [] activate other (by decide) (.inl hother)
  obtain ⟨hcommute, hinterleave⟩ := commutes_runSession hlib
  obtain ⟨hanswers, hafter⟩ :=
    hinterleave _ _ hcalls (.tail (.single hfirst) hsecond)
  exact ⟨hcommute _ _ _ _ (.inr ⟨hsame, hnow, hnow, hstop⟩), hanswers, hafter,
    by decide +kernel⟩

end FilterStore
