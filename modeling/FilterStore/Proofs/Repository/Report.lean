import Mathlib.Tactic
import FilterStore.Proofs.Repository.AuditTrail

/-!
What an operation reports is what it did.

* **Storage errors.** `Failure.StorageError` says which failures are trouble with the database or
  with files. They are the ones that are reported as warnings (`Failure.isStorage_iff`).
* **All contents.** An operation that passes its name checks ends in one of the three ways, however
  long the content is that it stores (`ends_of_checks`).
* **Silence.** An operation is `Idle` where there is nothing to do: it reads, or what it would switch
  off or take out is not there. A success is silent exactly then (`silent_iff`).
* **Reports.** A call that is refused by name is not reported. A failed transaction is reported with
  its failure and changes nothing, and a success is reported exactly if it writes
  (`reported_faithfully`).
-/

namespace FilterStore

/-! ### Storage errors -/

/-- A storage error: trouble with the database or with files. Every other failure is a refusal by a
rule. -/
def Failure.StorageError (e : Failure) : Prop :=
  (∃ fault, e = .storage fault) ∨ ∃ fault, e = .file fault

lemma Failure.isStorage_iff {e : Failure} : e.isStorage = true ↔ e.StorageError := by
  rw [Failure.StorageError]
  cases e with
  | storage fault => exact ⟨fun _ => .inl ⟨fault, rfl⟩, fun _ => rfl⟩
  | file fault => exact ⟨fun _ => .inr ⟨fault, rfl⟩, fun _ => rfl⟩
  | _ =>
      refine ⟨nofun, fun h => ?_⟩
      rcases h with ⟨fault, h⟩ | ⟨fault, h⟩ <;> cases h

namespace Operation

open Repository

variable {now : Instant} {op : Operation} {db : Database}

/-! ### All contents -/

/-- An operation that passes its name checks ends in one of the three ways, whatever rows there are
within the rules of the tables and however long its content is. -/
theorem ends_of_checks (hdb : db.Schema) (hc : op.checks = .ok ()) (now : Instant) :
    Ends now op db (op.run now db) := by
  cases op with
  | put owner name content =>
      rcases put_outcome hc content db with ⟨e, hput⟩ | ⟨previous, hv, hfind, -, hput⟩
      · rw [run, hput]
        exact .refused e
      · rw [run, hput]
        exact .wrote (.put hc hv hfind)
  | _ =>
      refine ends_run hdb ?_ hc now
      exact trivial

/-! ### Silence -/

/-- There is nothing to do: the operation reads, or what it would switch off or take out is not
there. -/
def Idle (db : Database) : Operation → Prop
  | .haveSpace _ _ _ | .list _ | .get _ _ | .getActive _ | .getActivationDate _ | .hasDefaultQuota
  | .getDefaultQuota | .hasQuota _ | .getQuota _ => True
  | .setActive owner name => name = "" ∧ ∀ r ∈ db.scripts, r.owner = owner → ¬ r.Marked
  | .removeDefaultQuota => ∀ r ∈ db.quotas, r.key ≠ QuotaKey.default.storageKey
  | .removeQuota owner => ∀ r ∈ db.quotas, r.key ≠ (QuotaKey.owner owner).storageKey
  | .put _ _ _ | .delete _ _ | .rename _ _ _ | .setDefaultQuota _ | .setQuota _ _ => False

/-- Where something is written there was something to do. -/
lemma Writes.not_idle {event : Event} {after : Database} (hdb : db.Schema)
    (h : Writes now db op event after) : ¬ op.Idle db := by
  have hquota : ∀ key, (db.quotaRow? key).isSome = true →
      ¬ ∀ r ∈ db.quotas, r.key ≠ key.storageKey := by
    intro key hfound hnone
    obtain ⟨r, hr⟩ := Option.isSome_iff_exists.mp hfound
    obtain ⟨hmem, hkey⟩ := (Database.quotaRow?_eq_some_iff hdb).mp hr
    exact hnone r hmem hkey
  cases h with
  | switchOff found =>
      obtain ⟨r, hr, howner, hmarked, -⟩ := Database.shows_of_findActive hdb found
      exact fun hidle => hidle.2 r hr howner hmarked
  | activate named found active => exact fun hidle => named hidle.1
  | removeDefaultQuota found => exact hquota .default found
  | removeQuota found => exact hquota (.owner _) found
  | _ => exact id

/-- Setting a limit is reported, whether it fits its column or not. -/
lemma events_setQuota_ne_nil (key : QuotaKey) (hk : checkKey key = .ok ()) (limit : Limit)
    (db : Database) : (Repository.setQuota key limit db).events ≠ [] := by
  rcases limit.storable_or with hl | ⟨count, rfl, hl⟩
  · rw [setQuota_stored key hk hl]
    exact List.cons_ne_nil _ _
  · rw [setQuota_refused key hk hl]
    exact List.cons_ne_nil _ _

/-- Removing an entry that is there is reported. -/
lemma events_removeQuota_ne_nil (key : QuotaKey) (hk : checkKey key = .ok ())
    (hsome : ¬ ∀ r ∈ db.quotas, r.key ≠ key.storageKey) :
    (Repository.removeQuota key db).events ≠ [] := by
  have hfound : (db.quotaRow? key).isSome = true := by
    rw [Option.isSome_iff_ne_none]
    exact fun hnone => hsome (Table.find?_eq_none_iff.mp hnone)
  rw [removeQuota_eq key hk, if_pos hfound]
  exact List.cons_ne_nil _ _

/-- Where there is something to do, the operation reports. -/
lemma events_ne_nil (hdb : db.Schema) (hc : op.checks = .ok ()) (hbusy : ¬ op.Idle db)
    (now : Instant) : (op.run now db).events ≠ [] := by
  cases op with
  | put owner name content =>
      rcases put_outcome hc content db with ⟨e, hput⟩ | ⟨previous, -, -, -, hput⟩
      · rw [run, hput]
        exact List.cons_ne_nil _ _
      · rw [run, hput]
        exact List.cons_ne_nil _ _
  | setActive owner name =>
      rw [run, setActive_eq hc]
      split_ifs with hname
      · rw [deactivate_eq hdb]
        cases hfind : db.findActive owner with
        | error f => exact List.cons_ne_nil _ _
        | ok found =>
            cases found with
            | none =>
                have hrow : db.activeRow? owner = none := optionMapM_eq_none_iff.mp hfind
                exact absurd ⟨hname, Database.activeRow?_eq_none_iff.mp hrow⟩ hbusy
            | some s => exact List.cons_ne_nil _ _
      · rw [activate_eq hdb]
        repeat' split
        all_goals exact List.cons_ne_nil _ _
  | delete owner name =>
      rw [run, delete_eq hc]
      repeat' split
      all_goals exact List.cons_ne_nil _ _
  | rename owner source target =>
      rw [run, rename_eq hdb hc]
      repeat' split
      all_goals exact List.cons_ne_nil _ _
  | setDefaultQuota limit => exact events_setQuota_ne_nil .default hc limit db
  | setQuota owner limit => exact events_setQuota_ne_nil (.owner owner) hc limit db
  | removeDefaultQuota => exact events_removeQuota_ne_nil .default hc hbusy
  | removeQuota owner => exact events_removeQuota_ne_nil (.owner owner) hc hbusy
  | _ => exact absurd trivial hbusy

/-- A success is silent exactly if there is nothing to do. -/
theorem silent_iff (hdb : db.Schema) (hc : op.checks = .ok ()) {a : Answer}
    (hok : (op.run now db).result = .ok a) : (op.run now db).events = [] ↔ op.Idle db := by
  constructor
  · exact fun hsilent => by_contra fun hbusy => events_ne_nil hdb hc hbusy now hsilent
  · intro hidle
    have hends := ends_of_checks hdb hc now
    generalize op.run now db = o at hends hok ⊢
    cases hends with
    | refused e => cases hok
    | answered a => rfl
    | wrote writes => exact absurd hidle (writes.not_idle hdb)

/-! ### Reports -/

/-- The event tells a failure: as a warning if it is a storage error and else for debugging, with the
name of the operation, the owner and the failure in words. -/
structure TellsFailure (op : Operation) (e : Failure) (event : Event) : Prop where
  /-- A storage error is a warning. -/
  trouble : e.StorageError → event.level = .warn ∧ event.message = "transaction rolled back"
  /-- A refusal is of interest in debugging only. -/
  refusal : ¬ e.StorageError → event.level = .debug ∧ event.message = "request refused"
  /-- The particulars. -/
  fields : event.fields =
    [("operation", .text op.label), ("owner", .text op.subject), ("error", .text e.message)]

/-- The report of a failure tells it. -/
lemma tellsFailure_failed (op : Operation) (e : Failure) :
    op.TellsFailure e (.failed op.label op.subject e) where
  trouble h := by
    rw [Event.level, Event.message, Failure.isStorage_iff.mpr h]
    exact ⟨rfl, rfl⟩
  refusal h := by
    rw [Event.level, Event.message, Bool.eq_false_iff.mpr (mt Failure.isStorage_iff.mp h)]
    exact ⟨rfl, rfl⟩
  fields := rfl

/-- **Reports are faithful.** On all tables within the rules and for every operation: if its name
checks fail, it answers with the fault, reports nothing and changes nothing. If it fails after
them, nothing changes and there is one event, which tells the failure. If it succeeds, there is at
most one event, of information, which reports what was written; it is silent exactly if there was
nothing to do, and then nothing changes. -/
theorem reported_faithfully (hdb : db.Schema) (op : Operation) (now : Instant) :
    (∀ e, op.checks = .error e → op.run now db = ⟨.error e, [], db⟩) ∧
    (op.checks = .ok () →
      (∀ e, (op.run now db).result = .error e →
        (op.run now db).database = db ∧
          ∃ event, (op.run now db).events = [event] ∧ op.TellsFailure e event) ∧
      ∀ a, (op.run now db).result = .ok a →
        (op.run now db).events.length ≤ 1 ∧
        (∀ event ∈ (op.run now db).events,
          event.level = .info ∧ Writes now db op event (op.run now db).database) ∧
        ((op.run now db).events = [] → (op.run now db).database = db) ∧
        ((op.run now db).events = [] ↔ op.Idle db)) := by
  refine ⟨fun e => run_of_checks_error, fun hc => ⟨fun e herror => ?_, fun a hok => ?_⟩⟩
  · have hends := ends_of_checks hdb hc now
    generalize op.run now db = o at hends herror ⊢
    cases hends with
    | refused failure =>
        cases herror
        exact ⟨rfl, _, rfl, op.tellsFailure_failed e⟩
    | answered a => cases herror
    | wrote writes => cases herror
  · have hsilent := silent_iff hdb hc hok
    have hends := ends_of_checks hdb hc now
    generalize op.run now db = o at hends hok hsilent ⊢
    cases hends with
    | refused failure => cases hok
    | answered a => exact ⟨Nat.zero_le 1, nofun, fun _ => rfl, hsilent⟩
    | wrote writes =>
        exact ⟨le_rfl, List.forall_mem_singleton.mpr ⟨writes.level_eq, writes⟩, nofun, hsilent⟩

/-- Beside a script of negative size a content is refused with a warning, and an absent quota is
removed without a word. -/
theorem reported_faithfully_negative_size :
    let db : Database := ⟨[⟨"ann", "day", "keep;", -1, 0, none⟩], []⟩
    let put : Operation := .put "ann" "night" "stop;"
    let remove : Operation := .removeQuota "ann"
    db.Schema ∧
      ((put.run .epoch db).database = db ∧
        ∃ event, (put.run .epoch db).events = [event] ∧ event.level = .warn ∧
          event.message = "transaction rolled back") ∧
      (remove.run .epoch db).events = [] ∧ (remove.run .epoch db).database = db := by
  intro db put remove
  have hdb : db.Schema := by decide +kernel
  have hput := (reported_faithfully hdb put .epoch).2 (by decide +kernel)
  have hremove := (reported_faithfully hdb remove .epoch).2 (by decide +kernel)
  have hrefused : (put.run .epoch db).result = .error (.storage .negativeSize) := by decide +kernel
  have hdone : (remove.run .epoch db).result = .ok .done := by decide +kernel
  obtain ⟨hsame, event, hevents, htells⟩ := hput.1 _ hrefused
  obtain ⟨-, -, hunchanged, hsilent⟩ := hremove.2 _ hdone
  have hnothing : (remove.run .epoch db).events = [] := hsilent.mpr fun r hr => nomatch hr
  exact ⟨hdb, ⟨hsame, event, hevents, htells.trouble (.inl ⟨_, rfl⟩)⟩, hnothing,
    hunchanged hnothing⟩

end Operation

end FilterStore
