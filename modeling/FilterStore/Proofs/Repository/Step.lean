import FilterStore.Proofs.Repository.Outcome

/-!
What one operation can do.

* **Before the transaction.** `Operation.checks` are the name checks of an operation; one that fails
  them answers with the fault and does nothing else (`run_of_checks_error`).
* **Writes.** `Operation.Writes` lists the changes that operations make, each with the event that
  reports it and with what was found before the write.
* **All cases.** Under the rules of the tables an operation fails its checks, is refused in its
  transaction, answers without a change, or makes one of the listed changes (`run_cases`). This is
  shown method by method, and for the methods on quota entries over any key.
* **Rows.** A change keeps the rules of the tables (`Writes.schema`), and each row after it was there
  before or is one that the operation writes (`Writes.scripts`, `Writes.quotas`).
-/

namespace FilterStore

namespace Operation

open Repository

variable {now : Instant} {op : Operation} {db : Database}

/-- The contents that a text in memory can have: fewer than `2^63` bytes. Limits of the database
engine on its own resources are left out, among them its greatest length of a text or a row, which
is 10^9 bytes in a default build of SQLite. -/
def Fits : Operation → Prop
  | .put _ _ content => content.utf8ByteSize < columnBound
  | _ => True

/-- The name checks of an operation. -/
def checks : Operation → Except Failure Unit
  | .put owner name _ => checkScript owner name
  | .rename owner _ target => checkScript owner target
  | .haveSpace owner _ _ | .list owner | .get owner _ | .getActive owner | .getActivationDate owner
  | .setActive owner _ | .delete owner _ | .hasQuota owner | .getQuota owner | .setQuota owner _
  | .removeQuota owner => checkOwner owner
  | .hasDefaultQuota | .getDefaultQuota | .setDefaultQuota _ | .removeDefaultQuota => .ok ()

/-- The name under which an operation reports a failure. -/
def label : Operation → String
  | .haveSpace _ _ _ => "have_space"
  | .put _ _ _ => "put_script"
  | .list _ => "list_scripts"
  | .get _ _ => "get_script"
  | .getActive _ | .getActivationDate _ => "get_active"
  | .setActive _ _ => "set_active"
  | .delete _ _ => "delete_script"
  | .rename _ _ _ => "rename_script"
  | .hasDefaultQuota | .hasQuota _ => "has_quota"
  | .getDefaultQuota | .getQuota _ => "get_quota"
  | .setDefaultQuota _ | .setQuota _ _ => "set_quota"
  | .removeDefaultQuota | .removeQuota _ => "remove_quota"

/-- The owner that a failure is reported with: the storage key for an operation on quotas. -/
def subject (op : Operation) : String :=
  op.owner?.getD QuotaKey.default.storageKey

/-- The name checks find fault with names only. -/
lemma checks_ne_storage {f : StorageFault} : op.checks ≠ .error (.storage f) := by
  have hname : ∀ role name, Name.require role name ≠ .error (.storage f) := by
    intro role name h
    rw [Name.require] at h
    cases hcheck : Name.check role name <;> simp [hcheck, Except.mapError] at h
  have hscript : ∀ owner name, checkScript owner name ≠ .error (.storage f) := by
    intro owner name h
    rw [checkScript] at h
    cases howner : Name.require .owner owner with
    | error e =>
        simp only [howner, bind, Except.bind, Except.error.injEq] at h
        exact hname _ _ (h ▸ howner)
    | ok u =>
        simp only [howner, bind, Except.bind] at h
        exact hname _ _ h
  cases op with
  | put owner name content => exact hscript owner name
  | rename owner source target => exact hscript owner target
  | hasDefaultQuota =>
      intro h
      cases h
  | getDefaultQuota =>
      intro h
      cases h
  | setDefaultQuota limit =>
      intro h
      cases h
  | removeDefaultQuota =>
      intro h
      cases h
  | _ => exact hname _ _

/-- An operation that fails its name checks answers with the fault and does nothing else. -/
theorem run_of_checks_error {e : Failure} (h : op.checks = .error e) :
    op.run now db = ⟨.error e, [], db⟩ := by
  cases op with
  | hasDefaultQuota => cases h
  | getDefaultQuota => cases h
  | setDefaultQuota limit => cases h
  | removeDefaultQuota => cases h
  | getActive owner =>
      have hactive : Repository.active owner db = ⟨.error e, [], db⟩ := afterChecks_of_error h _
      simp only [run, Repository.getActive, hactive]
      rfl
  | getActivationDate owner =>
      have hactive : Repository.active owner db = ⟨.error e, [], db⟩ := afterChecks_of_error h _
      simp only [run, Repository.getActivationDate, hactive]
      rfl
  | hasQuota owner =>
      have hk : checkKey (.owner owner) = .error e := h
      exact congrArg (Outcome.map _) (afterChecks_of_error hk _)
  | getQuota owner =>
      have hk : checkKey (.owner owner) = .error e := h
      exact congrArg (Outcome.map _) (afterChecks_of_error hk _)
  | _ => exact congrArg (Outcome.map _) (afterChecks_of_error h _)

/-- The changes that an operation can make: what was found before, the event that reports the
change, and the database after it. -/
inductive Writes (now : Instant) (db : Database) : Operation → Event → Database → Prop where
  /-- A content that fits is stored. -/
  | put {owner name content : String} {previous : Option Script}
      (names : checkScript owner name = .ok ())
      (verdict : spaceVerdict owner name (contentSize content) db = .ok ())
      (found : db.findScript owner name = .ok previous) :
      Writes now db (.put owner name content) (.stored owner name (contentSize content))
        (db.store (replacement owner name content previous))
  /-- The active script is switched off. -/
  | switchOff {owner : String} {s : Script} (found : db.findActive owner = .ok (some s)) :
      Writes now db (.setActive owner "") (.deactivated owner s.name) (db.store s.deactivate)
  /-- A script becomes the only active one. -/
  | activate {owner name : String} {target : Script} {current : Option Script} (named : name ≠ "")
      (found : db.findScript owner name = .ok (some target))
      (active : db.findActive owner = .ok current) :
      Writes now db (.setActive owner name) (.activated owner name)
        (db.storeAll (switchOver now target current))
  /-- An inactive script is taken out. -/
  | delete {owner name : String} {s : Script} (found : db.findScript owner name = .ok (some s))
      (inactive : s.active = false) :
      Writes now db (.delete owner name) (.deleted owner name) (db.deleteScript owner name)
  /-- A script moves to a free name. -/
  | rename {owner source target : String} {s : Script}
      (names : checkScript owner target = .ok ())
      (found : db.findScript owner source = .ok (some s))
      (free : db.findScript owner target = .ok none) :
      Writes now db (.rename owner source target) (.renamed owner source target)
        ((db.deleteScript owner source).store (s.renamed target))
  /-- The default limit is set. -/
  | setDefaultQuota {limit : Limit} (storable : limit.Storable) :
      Writes now db (.setDefaultQuota limit) (.quotaSet .default limit)
        (db.storeLimit .default limit)
  /-- The limit of an owner is set. -/
  | setQuota {owner : String} {limit : Limit} (named : checkOwner owner = .ok ())
      (storable : limit.Storable) :
      Writes now db (.setQuota owner limit) (.quotaSet (.owner owner) limit)
        (db.storeLimit (.owner owner) limit)
  /-- The default limit is removed. -/
  | removeDefaultQuota (found : (db.quotaRow? .default).isSome = true) :
      Writes now db .removeDefaultQuota (.quotaRemoved .default) (db.deleteLimit .default)
  /-- The limit of an owner is removed. -/
  | removeQuota {owner : String} (found : (db.quotaRow? (.owner owner)).isSome = true) :
      Writes now db (.removeQuota owner) (.quotaRemoved (.owner owner))
        (db.deleteLimit (.owner owner))

/-- What an operation comes to: it is refused in its transaction, answers without a change, or makes
a change and reports it. -/
inductive Ends (now : Instant) (op : Operation) (db : Database) : Outcome Answer → Prop where
  /-- Nothing changes, and the failure is reported. -/
  | refused (e : Failure) : Ends now op db (.refused op.label op.subject e db)
  /-- Nothing changes, and nothing is reported. -/
  | answered (a : Answer) : Ends now op db ⟨.ok a, [], db⟩
  /-- The change is made and reported. -/
  | wrote {event : Event} {after : Database} (writes : Writes now db op event after) :
      Ends now op db ⟨.ok .done, [event], after⟩

/-- An entry that is not there can be removed without a change. -/
lemma deleteLimit_of_none {key : QuotaKey} (h : (db.quotaRow? key).isSome = false) :
    db.deleteLimit key = db := by
  have hall : ∀ r ∈ db.quotas, decide (Keyed.key r ≠ key.storageKey) = true := by
    intro r hr
    rw [Option.isSome_eq_false_iff, Option.isNone_iff_eq_none] at h
    simpa using Table.find?_eq_none_iff.mp h r hr
  rw [Database.deleteLimit, Table.erase, List.filter_eq_self.mpr hall]

/-- A failure that is reported under the name and the subject of the operation is one of the ways. -/
lemma Ends.reported {label subject : String} (hlabel : op.label = label)
    (hsubject : op.subject = subject) (e : Failure) :
    Ends now op db (.refused label subject e db) := by
  rw [← hlabel, ← hsubject]
  exact .refused e

section Scripts

variable {owner name : String}

/-- The active script has a date, so where there is one its date is told. -/
lemma ends_getActivationDate (hdb : db.Schema) (ho : checkOwner owner = .ok ()) :
    Ends now (.getActivationDate owner) db ((Repository.getActivationDate owner db).map .date) := by
  rw [Repository.getActivationDate, active_eq ho]
  rcases hfind : db.findActive owner with f | _ | s
  · exact .refused _
  · exact .refused _
  · obtain ⟨t, ht⟩ := Option.isSome_iff_exists.mp (Database.isSome_date_of_findActive hdb hfind)
    simp only [Outcome.andThen, Except.bind, ht]
    exact .answered _

lemma ends_deactivate (hdb : db.Schema) (owner : String) :
    Ends now (.setActive owner "") db ((deactivate owner db).map fun _ => .done) := by
  rw [deactivate_eq hdb]
  rcases hfind : db.findActive owner with f | _ | s
  · exact .refused _
  · exact .answered _
  · exact .wrote (.switchOff hfind)

lemma ends_activate (hdb : db.Schema) (owner : String) (hname : name ≠ "") :
    Ends now (.setActive owner name) db ((activate now owner name db).map fun _ => .done) := by
  rw [activate_eq hdb]
  rcases hfind : db.findScript owner name with f | _ | target
  · exact .refused _
  · exact .refused _
  · cases hactive : db.findActive owner with
    | error f => exact .refused _
    | ok current => exact .wrote (.activate hname hfind hactive)

/-- The empty name switches off, and every other name is activated. -/
lemma ends_setActive (hdb : db.Schema) (ho : checkOwner owner = .ok ()) (name : String) :
    Ends now (.setActive owner name) db
      ((Repository.setActive now owner name db).map fun _ => .done) := by
  rw [setActive_eq ho]
  split_ifs with hname
  · rw [hname]
    exact ends_deactivate hdb owner
  · exact ends_activate hdb owner hname

lemma ends_delete (ho : checkOwner owner = .ok ()) (name : String) (db : Database) :
    Ends now (.delete owner name) db ((Repository.delete owner name db).map fun _ => .done) := by
  rw [delete_eq ho]
  rcases hfind : db.findScript owner name with f | _ | s
  · exact .refused _
  · exact .refused _
  · cases ha : s.active with
    | true =>
        simp only [ha, if_true]
        exact .refused _
    | false =>
        simp only [ha, Bool.false_eq_true, if_false]
        exact .wrote (.delete hfind ha)

lemma ends_rename {target : String} (hdb : db.Schema) (hc : checkScript owner target = .ok ())
    (source : String) :
    Ends now (.rename owner source target) db
      ((Repository.rename owner source target db).map fun _ => .done) := by
  rw [rename_eq hdb hc]
  rcases hfind : db.findScript owner source with f | _ | s
  · exact .refused _
  · exact .refused _
  · rcases htarget : db.findScript owner target with f | _ | p
    · exact .refused _
    · exact .wrote (.rename hc hfind htarget)
    · exact .refused _

end Scripts

section Quotas

variable (key : QuotaKey)

/-- To ask whether there is an entry changes nothing. -/
lemma ends_hasQuota (hlabel : op.label = "has_quota") (hsubject : op.subject = key.storageKey)
    (hk : checkKey key = .ok ()) : Ends now op db ((Repository.hasQuota key db).map .yes) := by
  rw [hasQuota_eq key hk]
  cases db.findLimit key with
  | error f => exact .reported hlabel hsubject _
  | ok limit => exact .answered _

/-- Nor does reading one. -/
lemma ends_getQuota (hlabel : op.label = "get_quota") (hsubject : op.subject = key.storageKey)
    (hk : checkKey key = .ok ()) : Ends now op db ((Repository.getQuota key db).map .limit) := by
  rw [getQuota_eq key hk]
  rcases db.findLimit key with f | _ | limit
  · exact .reported hlabel hsubject _
  · exact .reported hlabel hsubject _
  · exact .answered _

/-- Setting an entry is one of the changes if the limit fits its column. -/
lemma ends_setQuota (hlabel : op.label = "set_quota") (hsubject : op.subject = key.storageKey)
    (hk : checkKey key = .ok ()) {limit : Limit}
    (hwrites : limit.Storable → Writes now db op (.quotaSet key limit) (db.storeLimit key limit)) :
    Ends now op db ((Repository.setQuota key limit db).map fun _ => .done) := by
  rcases limit.storable_or with hl | ⟨count, rfl, hl⟩
  · rw [setQuota_stored key hk hl]
    exact .wrote (hwrites hl)
  · rw [setQuota_refused key hk hl]
    exact .reported hlabel hsubject _

/-- Removing an entry is one of the changes if there is one. -/
lemma ends_removeQuota (hk : checkKey key = .ok ())
    (hwrites : (db.quotaRow? key).isSome = true →
      Writes now db op (.quotaRemoved key) (db.deleteLimit key)) :
    Ends now op db ((Repository.removeQuota key db).map fun _ => .done) := by
  rw [removeQuota_eq key hk]
  cases hfound : (db.quotaRow? key).isSome with
  | true => exact .wrote (hwrites hfound)
  | false =>
      rw [deleteLimit_of_none hfound]
      exact .answered _

end Quotas

/-- An operation that passes its name checks ends in one of the three ways, whatever rows there are
within the rules of the tables. -/
theorem ends_run (hdb : db.Schema) (hfit : op.Fits) (hc : op.checks = .ok ()) (now : Instant) :
    Ends now op db (op.run now db) := by
  cases op with
  | haveSpace owner name size =>
      rw [run, haveSpace_eq hc]
      cases spaceVerdict owner name size db with
      | error e => exact .refused e
      | ok u => exact .answered .done
  | put owner name content =>
      cases hv : spaceVerdict owner name (contentSize content) db with
      | error e =>
          rw [run, put_refused hc hv]
          exact .refused e
      | ok u =>
          obtain ⟨previous, hfind, hput⟩ := put_stored hdb hc hfit hv
          rw [run, hput]
          exact .wrote (.put hc hv hfind)
  | list owner =>
      rw [run, list_eq hc]
      cases db.findAll owner with
      | error f => exact .refused _
      | ok scripts => exact .answered _
  | get owner name =>
      rw [run, get_eq hc]
      rcases db.findScript owner name with f | _ | s
      · exact .refused _
      · exact .refused _
      · exact .answered _
  | getActive owner =>
      rw [run, Repository.getActive, active_eq hc]
      rcases db.findActive owner with f | _ | s
      · exact .refused _
      · exact .refused _
      · exact .answered _
  | getActivationDate owner => exact ends_getActivationDate hdb hc
  | setActive owner name => exact ends_setActive hdb hc name
  | delete owner name => exact ends_delete hc name db
  | rename owner source target => exact ends_rename hdb hc source
  | hasDefaultQuota => exact ends_hasQuota .default rfl rfl hc
  | hasQuota owner => exact ends_hasQuota (.owner owner) rfl rfl hc
  | getDefaultQuota => exact ends_getQuota .default rfl rfl hc
  | getQuota owner => exact ends_getQuota (.owner owner) rfl rfl hc
  | setDefaultQuota limit => exact ends_setQuota .default rfl rfl hc .setDefaultQuota
  | setQuota owner limit => exact ends_setQuota (.owner owner) rfl rfl hc (.setQuota hc)
  | removeDefaultQuota => exact ends_removeQuota .default hc .removeDefaultQuota
  | removeQuota owner => exact ends_removeQuota (.owner owner) hc .removeQuota

/-- Every operation fails its name checks and does nothing else, or ends in one of the three ways. -/
theorem run_cases (hdb : db.Schema) (hfit : op.Fits) (now : Instant) :
    (∃ e, op.checks = .error e ∧ op.run now db = ⟨.error e, [], db⟩) ∨
      Ends now op db (op.run now db) := by
  cases hc : op.checks with
  | error e => exact .inl ⟨e, rfl, run_of_checks_error hc⟩
  | ok u => exact .inr (ends_run hdb hfit hc now)

/-- The database after an operation is the one before it or one that the operation writes. -/
theorem database_run (hdb : db.Schema) (hfit : op.Fits) (now : Instant) :
    (op.run now db).database = db ∨
      ∃ event, Writes now db op event (op.run now db).database := by
  rcases run_cases hdb hfit now with ⟨e, -, hrun⟩ | hends
  · rw [hrun]
    exact .inl rfl
  · generalize op.run now db = o at hends
    cases hends with
    | refused e => exact .inl rfl
    | answered a => exact .inl rfl
    | wrote writes => exact .inr ⟨_, writes⟩

/-! ### The rows after a change -/

/-- A change keeps the rules of the tables. -/
theorem Writes.schema {event : Event} {after : Database} (hdb : db.Schema) (hfit : op.Fits)
    (h : Writes now db op event after) : after.Schema := by
  cases h with
  | put names verdict found => exact hdb.store (takes_replacement hdb hfit found)
  | switchOff found =>
      obtain ⟨r, -, -, -, hrs⟩ := Database.shows_of_findActive hdb found
      exact hdb.store (Database.takes_deactivate hrs.storable)
  | activate named found active => exact hdb.storeAll (takesInTurn_switchOver hdb now found active)
  | delete found inactive => exact hdb.deleteScript
  | rename names found free => exact hdb.deleteScript.store (takes_renamed hdb found _)
  | setDefaultQuota storable => exact hdb.storeLimit
  | setQuota named storable => exact hdb.storeLimit
  | removeDefaultQuota found => exact hdb.deleteLimit
  | removeQuota found => exact hdb.deleteLimit

/-- The scripts that an operation writes. -/
inductive Made (now : Instant) (db : Database) : Operation → Script → Prop where
  /-- The script that a content becomes. -/
  | put {owner name content : String} {previous : Option Script}
      (names : checkScript owner name = .ok ())
      (found : db.findScript owner name = .ok previous) :
      Made now db (.put owner name content) (replacement owner name content previous)
  /-- The script that was active. -/
  | off {owner name : String} {s : Script} (found : db.findActive owner = .ok (some s)) :
      Made now db (.setActive owner name) s.deactivate
  /-- The script that becomes active. -/
  | on {owner name : String} {s : Script} (found : db.findScript owner name = .ok (some s)) :
      Made now db (.setActive owner name) (s.activate now)
  /-- The script under its new name. -/
  | renamed {owner source target : String} {s : Script}
      (names : checkScript owner target = .ok ())
      (found : db.findScript owner source = .ok (some s)) :
      Made now db (.rename owner source target) (s.renamed target)

/-- The limits that an operation writes. -/
inductive MadeLimit : Operation → QuotaKey → Limit → Prop where
  /-- The default limit. -/
  | default {limit : Limit} (storable : limit.Storable) :
      MadeLimit (.setDefaultQuota limit) .default limit
  /-- The limit of an owner. -/
  | owner {name : String} {limit : Limit} (named : checkOwner name = .ok ())
      (storable : limit.Storable) : MadeLimit (.setQuota name limit) (.owner name) limit

/-- A script after a change was there before or is one that the operation writes. -/
lemma Writes.scripts {event : Event} {after : Database} (hdb : db.Schema)
    (h : Writes now db op event after) {r : ScriptRow} (hr : r ∈ after.scripts) :
    r ∈ db.scripts ∨ ∃ s, r = s.stored ∧ Made now db op s := by
  cases h with
  | put names verdict found =>
      rcases (Database.mem_store hdb).mp hr with rfl | ⟨hr, -⟩
      · exact .inr ⟨_, rfl, .put names found⟩
      · exact .inl hr
  | switchOff found =>
      rcases (Database.mem_store hdb).mp hr with rfl | ⟨hr, -⟩
      · exact .inr ⟨_, rfl, .off found⟩
      · exact .inl hr
  | activate named found active =>
      rcases Database.mem_storeAll hdb (takesInTurn_switchOver hdb now found active) hr with
        hr | ⟨s, hs, rfl⟩
      · exact .inl hr
      · rcases mem_switchOver hs with rfl | ⟨other, rfl, rfl⟩
        · exact .inr ⟨_, rfl, .on found⟩
        · exact .inr ⟨_, rfl, .off active⟩
  | delete found inactive => exact .inl (Database.mem_deleteScript.mp hr).1
  | rename names found free =>
      rcases (Database.mem_store hdb.deleteScript).mp hr with rfl | ⟨hr, -⟩
      · exact .inr ⟨_, rfl, .renamed names found⟩
      · exact .inl (Database.mem_deleteScript.mp hr).1
  | setDefaultQuota storable => exact .inl hr
  | setQuota named storable => exact .inl hr
  | removeDefaultQuota found => exact .inl hr
  | removeQuota found => exact .inl hr

/-- A limit after a change was there before or is one that the operation writes. -/
lemma Writes.quotas {event : Event} {after : Database} (hdb : db.Schema)
    (h : Writes now db op event after) {r : QuotaRow} (hr : r ∈ after.quotas) :
    r ∈ db.quotas ∨ ∃ key limit, r = limit.stored key ∧ MadeLimit op key limit := by
  cases h with
  | put names verdict found => exact .inl hr
  | switchOff found => exact .inl hr
  | activate named found active => exact .inl (Database.quotas_storeAll _ _ ▸ hr)
  | delete found inactive => exact .inl hr
  | rename names found free => exact .inl hr
  | setDefaultQuota storable =>
      rcases (Database.mem_storeLimit hdb).mp hr with rfl | ⟨hr, -⟩
      · exact .inr ⟨_, _, rfl, .default storable⟩
      · exact .inl hr
  | setQuota named storable =>
      rcases (Database.mem_storeLimit hdb).mp hr with rfl | ⟨hr, -⟩
      · exact .inr ⟨_, _, rfl, .owner named storable⟩
      · exact .inl hr
  | removeDefaultQuota found => exact .inl (Database.mem_deleteLimit.mp hr).1
  | removeQuota found => exact .inl (Database.mem_deleteLimit.mp hr).1

end Operation

end FilterStore
