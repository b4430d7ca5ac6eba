import FilterStore.Proofs.Repository.Isolation
import FilterStore.Proofs.Repository.Lasting
import FilterStore.Proofs.Repository.Refinement
import FilterStore.Proofs.Repository.Space

/-!
What the quota entries tell of the past.

* **Changes.** A `QuotaChange` sets or removes an entry. `committed` lists the changes of a session
  that were kept: those of the operations, statements and batches that succeeded.
* **What is in force.** `inForce` is what the last change of a storage key left under it. A database
  `Tells` changes if every key finds what they left, and each request keeps this up
  (`Tells.request`), whatever it does to the scripts.
* **Keys apart.** `Confined` says of a method that it reads and changes no entries but certain ones,
  and no scripts. The quota methods of a key are confined to the entry of this key, and those of the
  owner without a name to none.
* **Sessions.** `ledger_runSession` puts this together: the entries are a map from storage keys to
  limits in which the last committed change decides.
-/

namespace FilterStore

/-! ### Changes -/

/-- A change of a quota entry. -/
inductive QuotaChange where
  /-- The entry of the key is set. -/
  | set (key : QuotaKey) (limit : Limit)
  /-- The entry of the key is removed. -/
  | remove (key : QuotaKey)
  deriving DecidableEq, Repr

namespace QuotaChange

/-- The key whose entry is changed. -/
def key : QuotaChange → QuotaKey
  | .set key _ | .remove key => key

/-- The limit that is left. -/
def limit? : QuotaChange → Option Limit
  | .set _ limit => some limit
  | .remove _ => none

end QuotaChange

/-- What a statement that succeeds changes. -/
def StoreStep.quotaChange? : StoreStep → Option QuotaChange
  | .upsertLimit key limit => some (.set key limit)
  | .deleteLimit key => some (.remove key)
  | _ => none

/-- What an operation that succeeds changes. -/
def Operation.quotaChange? : Operation → Option QuotaChange
  | .setDefaultQuota limit => some (.set .default limit)
  | .setQuota owner limit => some (.set (.owner owner) limit)
  | .removeDefaultQuota => some (.remove .default)
  | .removeQuota owner => some (.remove (.owner owner))
  | _ => none

/-- What a request that succeeds changes. -/
def Request.quotaChanges : Request → List QuotaChange
  | .operation op => op.quotaChange?.toList
  | .statement step => step.quotaChange?.toList
  | .batch steps _ => steps.filterMap StoreStep.quotaChange?
  | .setUp | .reopen _ => []

/-- The statement adds a row of quotas as it is. -/
def StoreStep.AddsQuotaRow : StoreStep → Prop
  | .insertQuota _ => True
  | _ => False

/-- The request adds rows of quotas as they are. -/
def Request.AddsQuotaRows : Request → Prop
  | .statement step => step.AddsQuotaRow
  | .batch steps _ => ∃ step ∈ steps, step.AddsQuotaRow
  | .operation _ | .setUp | .reopen _ => False

/-- The changes of a session that were kept: those of the requests that succeeded. -/
def committed (session : List (Instant × Request)) (responses : List Response) :
    List QuotaChange :=
  ((session.zip responses).filter fun served => served.2.result.isOk).flatMap
    fun served => served.1.2.quotaChanges

/-- What the last change of a storage key left under it. -/
def inForce (changes : List QuotaChange) (key : QuotaKey) : Option Limit :=
  (changes.filter fun c => c.key.storageKey = key.storageKey).getLast?.bind QuotaChange.limit?

/-- A further change decides for its storage key and for no other one. -/
lemma inForce_concat (changes : List QuotaChange) (change : QuotaChange) (key : QuotaKey) :
    inForce (changes ++ [change]) key =
      if change.key.storageKey = key.storageKey then change.limit? else inForce changes key := by
  rw [inForce, inForce, List.filter_append]
  split_ifs with hkey
  · rw [List.filter_cons_of_pos (by simpa using hkey), List.filter_nil, List.getLast?_concat,
      Option.bind_some]
  · rw [List.filter_cons_of_neg (by simpa using hkey), List.filter_nil, List.append_nil]

lemma committed_cons (call : Instant × Request) (rest : List (Instant × Request))
    (db : Database) :
    committed (call :: rest) (runSession (call :: rest) db).1 =
      (if (call.2.run call.1 db).result.isOk then call.2.quotaChanges else []) ++
        committed rest (runSession rest (call.2.run call.1 db).database).1 := by
  have hsplit : (call :: rest).zip (runSession (call :: rest) db).1 =
      (call, call.2.run call.1 db) ::
        rest.zip (runSession rest (call.2.run call.1 db).database).1 := rfl
  rw [committed, hsplit]
  split_ifs with hok
  · rw [List.filter_cons_of_pos (by simpa using hok), List.flatMap_cons]
    rfl
  · rw [List.filter_cons_of_neg (by simpa using hok)]
    rfl

/-! ### What is in force -/

/-- Under every key is found what the changes left. -/
def Database.Tells (db : Database) (changes : List QuotaChange) : Prop :=
  ∀ key, db.findLimit key = .ok (inForce changes key)

namespace Database.Tells

variable {db after : Database} {changes : List QuotaChange} {key : QuotaKey} {limit : Limit}

lemma empty : Database.empty.Tells [] := fun _ => rfl

/-- What is done to the scripts makes no difference. -/
lemma of_quotas (h : db.Tells changes) (hq : after.quotas = db.quotas) : after.Tells changes := by
  intro k
  rw [← h k, findLimit, findLimit, quotaRow?, quotaRow?, hq]

/-- No further change makes no difference either. -/
lemma append_nil (h : db.Tells changes) : db.Tells (changes ++ []) :=
  (List.append_nil changes).symm ▸ h

lemma set (h : db.Tells changes) (hdb : db.Schema) (hl : limit.Storable) :
    (db.storeLimit key limit).Tells (changes ++ [.set key limit]) := by
  intro k
  rw [findLimit_storeLimit hdb hl, inForce_concat, h k]
  exact (apply_ite Except.ok _ _ _).symm

lemma remove (h : db.Tells changes) : (db.deleteLimit key).Tells (changes ++ [.remove key]) := by
  intro k
  rw [findLimit_deleteLimit, inForce_concat, h k]
  exact (apply_ite Except.ok _ _ _).symm

/-- There is a row exactly if a limit is in force. -/
lemma isSome_quotaRow? (h : db.Tells changes) (key : QuotaKey) :
    (db.quotaRow? key).isSome = (inForce changes key).isSome := by
  have hfind := h key
  cases hlimit : inForce changes key with
  | none =>
      rw [hlimit] at hfind
      rw [optionMapM_eq_none_iff.mp hfind]
      rfl
  | some limit =>
      rw [hlimit] at hfind
      obtain ⟨r, hr, -⟩ := optionMapM_eq_some_iff.mp hfind
      rw [hr]
      rfl

end Database.Tells

/-! ### Statements -/

namespace StoreStep

open FilterStore.Action

variable {db after : Database} {answer : StoreAnswer} {step : StoreStep}

/-- Another form of the answer makes no difference to success. -/
lemma ok_of_map {α β : Type} {act : Action α} {f : α → β} {b : β}
    (h : (f <$> act : Action β) db = .ok b after) : ∃ a, act db = .ok a after := by
  rw [map_eq_pure_bind] at h
  cases hact : act db with
  | ok a middle =>
      rw [run_bind_of_ok hact] at h
      cases h
      exact ⟨a, rfl⟩
  | error e middle =>
      rw [run_bind_of_error hact] at h
      cases h

/-- A change that succeeds leaves what it writes. -/
lemma ok_of_change {write : Database → Except Failure Database}
    (h : (change write) db = .ok () after) : write db = .ok after := by
  cases hwrite : write db with
  | ok written =>
      rw [change_of_ok hwrite] at h
      cases h
      rfl
  | error e =>
      rw [change_of_error hwrite] at h
      cases h

/-- A statement that is not about quotas leaves the entries alone. -/
lemma quotas_act (hact : step.act db = .ok answer after) (hraw : ¬ step.AddsQuotaRow)
    (hnone : step.quotaChange? = none) : after.quotas = db.quotas := by
  have hquery : ∀ {α : Type} {read : Database → Except StorageFault α} {a : α},
      query read db = .ok a after → after.quotas = db.quotas := by
    intro α read a h
    have hleft := left_query read db
    rw [h] at hleft
    exact congrArg Database.quotas hleft
  cases step with
  | findAll owner => exact hquery (ok_of_map hact).choose_spec
  | findActive owner => exact hquery (ok_of_map hact).choose_spec
  | findScript owner name => exact hquery (ok_of_map hact).choose_spec
  | findLimit key => exact hquery (ok_of_map hact).choose_spec
  | upsertScript s =>
      obtain ⟨_, hchange⟩ := ok_of_map hact
      rw [(Database.takes_of_upsertScript (ok_of_change hchange)).2]
      rfl
  | deleteScript owner name =>
      cases hact
      rfl
  | insertScript row =>
      obtain ⟨_, hchange⟩ := ok_of_map hact
      have hrow := ok_of_mapError (ok_of_change hchange)
      rw [Database.insertScript] at hrow
      split_ifs at hrow
      rw [← Except.ok.inj hrow]
  | insertQuota row => exact absurd trivial hraw
  | dump =>
      cases hact
      rfl
  | upsertLimit key limit => cases hnone
  | deleteLimit key => cases hnone

/-- A statement that succeeds adds its change. -/
lemma tells_act {changes : List QuotaChange} (h : db.Tells changes) (hdb : db.Schema)
    (hraw : ¬ step.AddsQuotaRow) (hact : step.act db = .ok answer after) :
    after.Tells (changes ++ step.quotaChange?.toList) := by
  cases hchange : step.quotaChange? with
  | none => exact (h.of_quotas (quotas_act hact hraw hchange)).append_nil
  | some change =>
      cases step with
      | upsertLimit key limit =>
          cases hchange
          obtain ⟨_, hwrite⟩ := ok_of_map hact
          have hstored := ok_of_change hwrite
          rcases limit.storable_or with hl | ⟨count, rfl, hl⟩
          · rw [Database.eq_storeLimit_of_upsertLimit hstored]
            exact h.set hdb hl
          · rw [Database.upsertLimit_of_ge hl] at hstored
            cases hstored
      | deleteLimit key =>
          cases hchange
          cases hact
          exact h.remove
      | _ => cases hchange

end StoreStep

/-- Statements that succeed one after another add their changes in turn. -/
lemma Completes.tells {db after : Database} {steps : List StoreStep} {answers : List StoreAnswer}
    (hrun : Completes db steps answers after) {changes : List QuotaChange} (h : db.Tells changes)
    (hdb : db.Schema) (hraw : ∀ step ∈ steps, ¬ step.AddsQuotaRow) :
    after.Tells (changes ++ steps.filterMap StoreStep.quotaChange?) := by
  induction hrun generalizing changes with
  | done db => exact h.append_nil
  | @step db middle after step rest answer answers first others ih =>
      have hfirst := step.tells_act h hdb (hraw step List.mem_cons_self) first
      have hmiddle := step.schema_act hdb
      rw [first] at hmiddle
      have hlast := ih hfirst hmiddle fun s hs => hraw s (List.mem_cons_of_mem step hs)
      rw [List.append_assoc] at hlast
      cases hchange : step.quotaChange? with
      | none =>
          rw [hchange] at hlast
          rwa [List.filterMap_cons_none hchange]
      | some change =>
          rw [hchange] at hlast
          rwa [List.filterMap_cons_some hchange]

/-! ### Operations -/

namespace Repository

variable {db : Database} {changes : List QuotaChange} {key : QuotaKey} {limit : Limit}

lemma tells_setQuota (h : db.Tells changes) (hdb : db.Schema)
    (hok : (setQuota key limit db).result = .ok ()) :
    (setQuota key limit db).database.Tells (changes ++ [.set key limit]) := by
  have hk := checks_of_ok hok
  rcases limit.storable_or with hl | ⟨count, rfl, hl⟩
  · rw [setQuota_stored key hk hl]
    exact h.set hdb hl
  · rw [setQuota_refused key hk hl] at hok
    cases hok

lemma tells_removeQuota (h : db.Tells changes) (hok : (removeQuota key db).result = .ok ()) :
    (removeQuota key db).database.Tells (changes ++ [.remove key]) := by
  rw [removeQuota_eq key (checks_of_ok hok)]
  exact h.remove

end Repository

namespace Operation

variable {db : Database} {changes : List QuotaChange} {op : Operation} {now : Instant}

/-- An answer that tells no more than success comes from a success. -/
lemma ok_of_map_ok {o : Outcome Unit} {answer : Answer}
    (h : (o.map fun _ => Answer.done).result = .ok answer) : o.result = .ok () := by
  cases hresult : o.result with
  | ok u => rfl
  | error e =>
      rw [Outcome.map, hresult] at h
      cases h

/-- An operation that succeeds adds its change. -/
lemma tells_run (h : db.Tells changes) (hdb : db.Schema) {answer : Answer}
    (hok : (op.run now db).result = .ok answer) :
    (op.run now db).database.Tells (changes ++ op.quotaChange?.toList) := by
  have hkept : ¬ op.ChangesQuota → (op.run now db).database.Tells changes := by
    intro hkeeps
    rcases writes_run hdb op now with hsame | ⟨-, ⟨event, writes⟩, -⟩
    · rw [hsame]
      exact h
    · exact h.of_quotas (writes.quotas_eq.resolve_left hkeeps)
  cases op with
  | setDefaultQuota limit => exact Repository.tells_setQuota h hdb (ok_of_map_ok hok)
  | setQuota owner limit => exact Repository.tells_setQuota h hdb (ok_of_map_ok hok)
  | removeDefaultQuota => exact Repository.tells_removeQuota h (ok_of_map_ok hok)
  | removeQuota owner => exact Repository.tells_removeQuota h (ok_of_map_ok hok)
  | _ => exact (hkept id).append_nil

end Operation

/-! ### Sessions -/

/-- A request adds its changes if it succeeds, and none if it fails. -/
lemma Request.tells_run {db : Database} {changes : List QuotaChange} (h : db.Tells changes)
    (hdb : db.Schema) {request : Request} (hraw : ¬ request.AddsQuotaRows) (now : Instant) :
    (request.run now db).database.Tells
      (changes ++ if (request.run now db).result.isOk then request.quotaChanges else []) := by
  cases request with
  | operation op =>
      rw [Request.run]
      cases hresult : (op.run now db).result with
      | ok answer => exact op.tells_run h hdb hresult
      | error e =>
          rw [op.database_of_error hdb hresult]
          exact h.append_nil
  | statement step =>
      rw [Request.run, step.transaction_act]
      cases hact : step.act db with
      | ok answer after => exact step.tells_act h hdb hraw hact
      | error e after =>
          rw [step.atomic_act db after e hact]
          exact h.append_nil
  | batch steps final =>
      rw [Request.run]
      rcases completes_or_breaks steps db with ⟨answers, after, hall⟩ | ⟨answers, e, after, hbreaks⟩
      · have htells := hall.tells h hdb fun step hstep hadds => hraw ⟨step, hstep, hadds⟩
        rw [hall.runBatch_eq]
        cases final with
        | none => exact htells
        | some e => exact h.append_nil
      · rw [hbreaks.runBatch_eq]
        exact h.append_nil
  | setUp => exact h.append_nil
  | reopen path => exact h.append_nil

/-- The entries after a session tell the changes before it and those that it committed. -/
lemma tells_runSession {session : List (Instant × Request)}
    (hraw : ∀ call ∈ session, ¬ call.2.AddsQuotaRows) {db : Database} {changes : List QuotaChange}
    (h : db.Tells changes) (hdb : db.Schema) :
    (runSession session db).2.Tells (changes ++ committed session (runSession session db).1) := by
  induction session generalizing db changes with
  | nil => exact h.append_nil
  | cons call rest ih =>
      have hfirst := Request.tells_run h hdb (hraw call List.mem_cons_self) call.1
      have hlast := ih (fun next hnext => hraw next (List.mem_cons_of_mem call hnext)) hfirst
        (call.2.schema_run call.1 hdb)
      rwa [List.append_assoc, ← committed_cons] at hlast

/-! ### Keys apart -/

namespace QuotaKey

/-- The storage key whose entry the methods of the repository mean by a key: none for an owner
without a name. -/
def Owns (key : QuotaKey) (stored : String) : Prop :=
  stored = key.storageKey ∧ key ≠ .owner ""

/-- Keys are stored under the same text only if they are the same, or the default key and that of an
owner without a name. -/
lemma storageKey_eq_iff (k l : QuotaKey) :
    k.storageKey = l.storageKey ↔
      k = l ∨ (k = .default ∧ l = .owner "") ∨ (k = .owner "" ∧ l = .default) := by
  cases k <;> cases l <;> simp [storageKey, eq_comm]

end QuotaKey

namespace Repository

open Database

variable {α : Type} {key : QuotaKey} {keys : String → Prop}

/-- The method reads no quota entries but those of certain storage keys, and no scripts, and it
changes no others. -/
structure Confined (keys : String → Prop) (method : Method α) : Prop where
  /-- Where these entries are the same, it answers and reports the same and leaves the same
  entries. -/
  reads : ∀ db₁ db₂ : Database, db₁.Schema → db₂.Schema → db₁.SameRows (fun _ => False) keys db₂ →
    (method db₁).result = (method db₂).result ∧ (method db₁).events = (method db₂).events ∧
      (method db₁).database.SameRows (fun _ => False) keys (method db₂).database
  /-- The other entries and all scripts stay. -/
  changes : ∀ db : Database, db.Schema →
    db.SameRows (fun _ => True) (fun k => ¬ keys k) (method db).database

/-- A method that fails its checks neither reads nor changes anything. -/
lemma confined_of_checks {checks : Except Failure Unit} {method : Method α}
    (h : checks = .ok () → Confined keys (afterChecks checks method)) :
    Confined keys (afterChecks checks method) := by
  cases hc : checks with
  | ok u =>
      rw [hc] at h
      exact h rfl
  | error e =>
      have hrun : ∀ db, afterChecks (.error e) method db = ⟨.error e, [], db⟩ := fun db => rfl
      refine ⟨fun db₁ db₂ _ _ hsame => ?_, fun db _ => ?_⟩
      · rw [hrun, hrun]
        exact ⟨rfl, rfl, hsame⟩
      · rw [hrun]
        exact .refl db

/-- A key that passes its check is meant itself. -/
lemma owns_of_checkKey (hk : checkKey key = .ok ()) : key.Owns key.storageKey :=
  ⟨rfl, ne_of_checkKey hk⟩

lemma confined_hasQuota (key : QuotaKey) : Confined key.Owns (hasQuota key) := by
  refine confined_of_checks fun hk => ⟨fun db₁ db₂ h₁ h₂ hsame => ?_, fun db _ => ?_⟩
  · rw [← hasQuota, hasQuota_eq key hk, hasQuota_eq key hk,
      hsame.findLimit h₁ h₂ (owns_of_checkKey hk)]
    cases db₂.findLimit key <;> exact ⟨rfl, rfl, hsame⟩
  · rw [← hasQuota, hasQuota_eq key hk]
    cases db.findLimit key <;> exact .refl db

lemma confined_getQuota (key : QuotaKey) : Confined key.Owns (getQuota key) := by
  refine confined_of_checks fun hk => ⟨fun db₁ db₂ h₁ h₂ hsame => ?_, fun db _ => ?_⟩
  · rw [← getQuota, getQuota_eq key hk, getQuota_eq key hk,
      hsame.findLimit h₁ h₂ (owns_of_checkKey hk)]
    rcases db₂.findLimit key with f | _ | limit <;> exact ⟨rfl, rfl, hsame⟩
  · rw [← getQuota, getQuota_eq key hk]
    rcases db.findLimit key with f | _ | limit <;> exact .refl db

lemma confined_setQuota (key : QuotaKey) (limit : Limit) :
    Confined key.Owns (setQuota key limit) := by
  refine confined_of_checks fun hk => ⟨fun db₁ db₂ h₁ h₂ hsame => ?_, fun db hdb => ?_⟩
  · rw [← setQuota]
    rcases limit.storable_or with hl | ⟨count, rfl, hl⟩
    · rw [setQuota_stored key hk hl, setQuota_stored key hk hl]
      exact ⟨rfl, rfl, hsame.storeLimit h₁ h₂ key limit⟩
    · rw [setQuota_refused key hk hl, setQuota_refused key hk hl]
      exact ⟨rfl, rfl, hsame⟩
  · rw [← setQuota]
    rcases limit.storable_or with hl | ⟨count, rfl, hl⟩
    · rw [setQuota_stored key hk hl]
      exact sameRows_storeLimit hdb fun hforeign => hforeign (owns_of_checkKey hk)
    · rw [setQuota_refused key hk hl]
      exact .refl db

lemma confined_removeQuota (key : QuotaKey) : Confined key.Owns (removeQuota key) := by
  refine confined_of_checks fun hk => ⟨fun db₁ db₂ h₁ h₂ hsame => ?_, fun db _ => ?_⟩
  · rw [← removeQuota, removeQuota_eq key hk, removeQuota_eq key hk,
      hsame.quotaRow? h₁ h₂ (owns_of_checkKey hk)]
    exact ⟨rfl, rfl, hsame.deleteLimit key⟩
  · rw [← removeQuota, removeQuota_eq key hk]
    exact sameRows_deleteLimit fun hforeign => hforeign (owns_of_checkKey hk)

end Repository

/-! ### The ledger -/

open Repository

/-- The quota entries of a database are what changes came to, for the statements and for the methods
of the repository. -/
structure Database.Ledger (db : Database) (changes : List QuotaChange) : Prop where
  /-- Under a key is found the limit in force. -/
  found : ∀ key, Action.findLimit key db = .ok (inForce changes key) db
  /-- No limit and a limit of fewer than `2^63` bytes are stored, and then they are in force. -/
  stored : ∀ key limit, (∀ count ∈ limit.bytes?, count.toNat < 2 ^ 63) →
    ∃ after, Action.upsertLimit key limit db = .ok () after ∧
      ∀ k, Action.findLimit k after = .ok (inForce (changes ++ [.set key limit]) k) after
  /-- A greater limit is refused, and nothing changes. -/
  refused : ∀ key count, 2 ^ 63 ≤ count.toNat →
    Action.upsertLimit key (.bytes count) db = .error (.limitTooLarge count) db
  /-- A removal tells whether a limit was in force, and then none is. -/
  removed : ∀ key, ∃ after, Action.deleteLimit key db = .ok (inForce changes key).isSome after ∧
    ∀ k, Action.findLimit k after = .ok (inForce (changes ++ [.remove key]) k) after
  /-- The repository tells whether a limit is in force. -/
  has : ∀ key, checkKey key = .ok () →
    (hasQuota key db).result = .ok (inForce changes key).isSome
  /-- It tells the limit. -/
  got : ∀ key, checkKey key = .ok () → (getQuota key db).result =
    (inForce changes key).elim (.error (.quotaNotFound key)) .ok
  /-- It refuses a limit of `2^63` bytes or more, and nothing changes. -/
  notSet : ∀ key count, checkKey key = .ok () → 2 ^ 63 ≤ count.toNat →
    (setQuota key (.bytes count) db).result = .error (.limitTooLarge count) ∧
      (setQuota key (.bytes count) db).database = db
  /-- It reports a removal exactly if a limit was in force. -/
  reported : ∀ key, checkKey key = .ok () → (removeQuota key db).result = .ok () ∧
    (.quotaRemoved key ∈ (removeQuota key db).events ↔ (inForce changes key).isSome = true)

/-- A database that tells changes is their ledger. -/
lemma Database.Tells.ledger {db : Database} {changes : List QuotaChange} (h : db.Tells changes)
    (hdb : db.Schema) : db.Ledger changes where
  found key := Action.query_of_ok (h key)
  stored key limit hl :=
    ⟨_, Action.change_of_ok (upsertLimit_of_storable hl key),
      fun k => Action.query_of_ok (h.set hdb hl k)⟩
  refused key count hl := Action.change_of_error (upsertLimit_of_ge hl key)
  removed key := by
    refine ⟨_, ?_, fun k => Action.query_of_ok (h.remove k)⟩
    rw [← h.isSome_quotaRow? key]
    exact Action.deleteLimit_run key db
  has key hk := by
    rw [hasQuota_eq key hk, h key]
  got key hk := by
    rw [getQuota_eq key hk, h key]
    cases inForce changes key <;> rfl
  notSet key count hk hl := by
    rw [setQuota_refused key hk hl]
    exact ⟨rfl, rfl⟩
  reported key hk := by
    rw [removeQuota_eq key hk, h.isSome_quotaRow? key]
    refine ⟨rfl, ?_⟩
    cases (inForce changes key).isSome <;> simp

/-- **Quota entries are a map that never mixes keys**: after every session on an empty database, of
operations, statements with any key and limit and batches that were kept or taken back, in which no
row of quotas is added as it is, the limit that is found under a key is the one that the last
committed change of its storage key set, and there is none if that change removed it or there was no
change. Limits of `2^63` bytes or more are refused and leave what was there, all others are kept as
they were given, and a removal tells whether there was an entry. Two keys share a storage key only
if they are the default key and that of an owner without a name, and the methods of the repository
read and change nothing but the entry of their key, and nothing at all for such an owner: so no
method for an owner touches the default entry, and none for the default entry another one. -/
theorem ledger_runSession {session : List (Instant × Request)}
    (hraw : ∀ call ∈ session, ¬ call.2.AddsQuotaRows) :
    let served := runSession session .empty
    served.2.Ledger (committed session served.1) ∧
      (∀ k l : QuotaKey, k.storageKey = l.storageKey ↔
        k = l ∨ (k = .default ∧ l = .owner "") ∨ (k = .owner "" ∧ l = .default)) ∧
      (∀ (key : QuotaKey) (limit : Limit),
        Confined key.Owns (hasQuota key) ∧ Confined key.Owns (getQuota key) ∧
          Confined key.Owns (setQuota key limit) ∧ Confined key.Owns (removeQuota key)) ∧
      (∀ owner, ¬ (QuotaKey.owner owner).Owns "") ∧
      ∀ stored, QuotaKey.default.Owns stored ↔ stored = "" := by
  intro served
  have hdb : served.2.Schema :=
    runSession_preserves (fun call _ _ hafter => call.2.schema_run call.1 hafter)
      Database.schema_empty
  have htells : served.2.Tells (committed session served.1) :=
    tells_runSession hraw .empty Database.schema_empty
  refine ⟨htells.ledger hdb, QuotaKey.storageKey_eq_iff, fun key limit =>
    ⟨confined_hasQuota key, confined_getQuota key, confined_setQuota key limit,
      confined_removeQuota key⟩, ?_, ?_⟩
  · rintro owner ⟨rfl, hne⟩
    exact hne rfl
  · exact fun stored => ⟨fun howns => howns.1, fun hstored => ⟨hstored, nofun⟩⟩

/-- The entry of an owner without a name is the default one, which a repository method sets anew; a
batch that is taken back, a limit that is too large and the removal of what is not there change
nothing, and no limit is another thing than no entry. -/
theorem ledger_runSession_shared :
    let session : List (Instant × Request) :=
      [(.epoch, .statement (.upsertLimit (.owner "") (.bytes 7))),
        (.epoch, .operation (.setDefaultQuota (.bytes 5))),
        (.epoch, .statement (.upsertLimit (.owner "ann") .unlimited)),
        (.epoch, .batch [.deleteLimit .default, .upsertLimit (.owner "ann") (.bytes 3)]
          (some (.quotaNotFound .default))),
        (.epoch, .operation (.setQuota "ann" (.bytes 9223372036854775808))),
        (.epoch, .operation (.put "bob" "day" "keep;")),
        (.epoch, .operation (.removeQuota "bob"))]
    let served := runSession session .empty
    let changes := committed session served.1
    changes = [.set (.owner "") (.bytes 7), .set .default (.bytes 5),
        .set (.owner "ann") .unlimited, .remove (.owner "bob")] ∧
      Action.findLimit (.owner "") served.2 = .ok (some (.bytes 5)) served.2 ∧
      Action.findLimit (.owner "ann") served.2 = .ok (some .unlimited) served.2 ∧
      (getQuota (.owner "bob") served.2).result = .error (.quotaNotFound (.owner "bob")) := by
  intro session served changes
  have hraw : ∀ call ∈ session, ¬ call.2.AddsQuotaRows := by
    have hbatch : ¬ (Request.batch [.deleteLimit .default, .upsertLimit (.owner "ann") (.bytes 3)]
        (some (.quotaNotFound .default))).AddsQuotaRows := by
      rintro ⟨step, hstep, hadds⟩
      rcases List.mem_pair.mp hstep with rfl | rfl <;> exact hadds
    simp only [session, List.forall_mem_cons]
    exact ⟨id, id, id, hbatch, id, id, id, List.forall_mem_nil _⟩
  have hchanges : changes = [.set (.owner "") (.bytes 7), .set .default (.bytes 5),
      .set (.owner "ann") .unlimited, .remove (.owner "bob")] := by decide +kernel
  have hledger : served.2.Ledger changes := (ledger_runSession hraw).1
  rw [hchanges] at hledger
  exact ⟨hchanges, hledger.found (.owner ""), hledger.found (.owner "ann"),
    hledger.got (.owner "bob") (by decide +kernel)⟩

end FilterStore
