import FilterStore.Proofs.Repository.Step
import FilterStore.Proofs.Store.Ownership

/-!
What the work of an operation is about.

* **Subjects.** `Action.About` says that an action is put together from statements about one subject:
  about the scripts of this owner, about the quota entry under this storage key, and otherwise only
  from a look at the default entry.
* **Consequences.** Such work makes changes to the rows of its subject only (`About.edits`), so it
  keeps the rules of the tables and leaves all other rows alone (`Edits.schema`, `Edits.others`). On
  databases with the same rows of the subject it does the same, whatever other rows they hold
  (`About.same`).
* **Operations.** Behind its name checks an operation is one transaction about its subject
  (`isWork`), so the consequences hold of operations (`schema_run`, `others_run`, `same_run`),
  without any condition on contents.
-/

namespace FilterStore

/-! ### What a step gives and leaves -/

namespace Action

variable {α β : Type}

/-- What a step answers, or why it failed. -/
def answer : EStateM.Result Failure Database α → Except Failure α
  | .ok a _ => .ok a
  | .error e _ => .error e

/-- The database that a step leaves, whether it succeeds or fails. -/
def left : EStateM.Result Failure Database α → Database
  | .ok _ db => db
  | .error _ db => db

/-- Two steps that answer the same both succeed or both fail. -/
lemma cases_of_answer_eq {r₁ r₂ : EStateM.Result Failure Database α} (h : answer r₁ = answer r₂) :
    (∃ a db₁ db₂, r₁ = .ok a db₁ ∧ r₂ = .ok a db₂) ∨
      ∃ e db₁ db₂, r₁ = .error e db₁ ∧ r₂ = .error e db₂ := by
  cases r₁ with
  | ok a db₁ =>
      cases r₂ with
      | ok b db₂ =>
          cases h
          exact .inl ⟨a, db₁, db₂, rfl, rfl⟩
      | error e db₂ => cases h
  | error e db₁ =>
      cases r₂ with
      | ok b db₂ => cases h
      | error f db₂ =>
          cases h
          exact .inr ⟨e, db₁, db₂, rfl, rfl⟩

/-! ### Subjects -/

/-- The action is put together from statements about one subject. -/
inductive About (subject : String) : {α : Type} → Action α → Prop
  /-- An answer takes no statement. -/
  | give {α : Type} (a : α) : About subject (pure a)
  /-- Neither does a refusal. -/
  | refuse {α : Type} (e : Failure) : About subject (throw e : Action α)
  /-- Read the scripts of the subject. -/
  | findAll : About subject (Action.findAll subject)
  /-- Read its marked script. -/
  | findActive : About subject (Action.findActive subject)
  /-- Read one of its scripts. -/
  | findScript (name : String) : About subject (Action.findScript subject name)
  /-- Read its quota entry, or the default one. -/
  | findLimit {key : QuotaKey} (own : key.storageKey = subject ∨ key.storageKey = "") :
      About subject (Action.findLimit key)
  /-- Store one of its scripts. -/
  | upsertScript {s : Script} (own : s.owner = subject) : About subject (Action.upsertScript s)
  /-- Take one of its scripts out. -/
  | deleteScript (name : String) : About subject (Action.deleteScript subject name)
  /-- Store its limit. -/
  | upsertLimit {key : QuotaKey} (own : key.storageKey = subject) (limit : Limit) :
      About subject (Action.upsertLimit key limit)
  /-- Take its quota entry out. -/
  | deleteLimit {key : QuotaKey} (own : key.storageKey = subject) :
      About subject (Action.deleteLimit key)
  /-- One after the other, where the second may rest on what the first gave. -/
  | inTurn {α β : Type} {x : Action α} {f : α → Action β} (first : About subject x)
      (second : ∀ {db after : Database} {a : α}, x db = .ok a after → About subject (f a)) :
      About subject (x >>= f)

/-! ### Single statements -/

lemma left_query (read : Database → Except StorageFault α) (db : Database) :
    left (query read db) = db := by
  rw [query]
  cases read db <;> rfl

lemma answer_query (read : Database → Except StorageFault α) (db : Database) :
    answer (query read db) = (read db).mapError .storage := by
  rw [query]
  cases read db <;> rfl

/-- A deletion tells whether there was a script and takes it out. -/
lemma deleteScript_run (owner name : String) (db : Database) :
    deleteScript owner name db
      = .ok (db.scriptRow? owner name).isSome (db.deleteScript owner name) :=
  rfl

lemma left_change_of_ok {write : Database → Except Failure Database} {db after : Database}
    (h : write db = .ok after) : left (change write db) = after := by
  rw [change_of_ok h]
  rfl

lemma left_change_of_error {write : Database → Except Failure Database} {db : Database}
    {e : Failure} (h : write db = .error e) : left (change write db) = db := by
  rw [change_of_error h]
  rfl

end Action

/-! ### Edits -/

/-- One change to the rows of a subject. -/
inductive Database.Edit (subject : String) (db : Database) : Database → Prop
  /-- A script is stored. -/
  | store {s : Script} (own : s.owner = subject) (takes : db.Takes s) :
      Edit subject db (db.store s)
  /-- A script is taken out. -/
  | deleteScript (name : String) : Edit subject db (db.deleteScript subject name)
  /-- A limit is stored. -/
  | storeLimit {key : QuotaKey} (own : key.storageKey = subject) (limit : Limit) :
      Edit subject db (db.storeLimit key limit)
  /-- A quota entry is taken out. -/
  | deleteLimit {key : QuotaKey} (own : key.storageKey = subject) :
      Edit subject db (db.deleteLimit key)

namespace Database

variable {subject : String} {db after : Database} {owners keys : String → Prop}

/-- Changes to the rows of a subject, one after another. -/
abbrev Edits (subject : String) : Database → Database → Prop :=
  Relation.ReflTransGen (Edit subject)

lemma Edit.schema (h : Edit subject db after) (hdb : db.Schema) : after.Schema := by
  cases h with
  | store own takes => exact hdb.store takes
  | deleteScript name => exact hdb.deleteScript
  | storeLimit own limit => exact hdb.storeLimit
  | deleteLimit own => exact hdb.deleteLimit

lemma Edit.others (h : Edit subject db after) (hdb : db.Schema) (ho : ¬ owners subject)
    (hk : ¬ keys subject) : SameRows owners keys db after := by
  cases h with
  | store own takes => exact sameRows_store hdb (own ▸ ho)
  | deleteScript name => exact sameRows_deleteScript ho
  | storeLimit own limit => exact sameRows_storeLimit hdb (own ▸ hk)
  | deleteLimit own => exact sameRows_deleteLimit (own ▸ hk)

/-- Changes keep the rules of the tables. -/
lemma Edits.schema (h : Edits subject db after) (hdb : db.Schema) : after.Schema := by
  induction h with
  | refl => exact hdb
  | tail _ edit ih => exact edit.schema ih

/-- Changes to the rows of a subject leave all other rows alone. -/
lemma Edits.others (h : Edits subject db after) (hdb : db.Schema) (ho : ¬ owners subject)
    (hk : ¬ keys subject) : SameRows owners keys db after := by
  induction h with
  | refl => exact .refl db
  | tail edits edit ih => exact ih.trans (edit.others (Edits.schema edits hdb) ho hk)

end Database

/-! ### Consequences -/

namespace Action

variable {α β : Type} {subject : String} {act : Action α} {db db₁ db₂ : Database}
  {owners keys : String → Prop}

/-- The work of a subject changes rows of the subject only. -/
theorem About.edits (h : act.About subject) (db : Database) :
    Database.Edits subject db (left (act db)) := by
  induction h generalizing db with
  | give a => exact .refl
  | refuse e => exact .refl
  | findAll => rw [Action.findAll, left_query]
  | findActive => rw [Action.findActive, left_query]
  | findScript name => rw [Action.findScript, left_query]
  | findLimit own => rw [Action.findLimit, left_query]
  | @upsertScript s own =>
      cases hwrite : db.upsertScript s with
      | error e => rw [Action.upsertScript, left_change_of_error hwrite]
      | ok after =>
          obtain ⟨htakes, rfl⟩ := Database.takes_of_upsertScript hwrite
          rw [Action.upsertScript, left_change_of_ok hwrite]
          exact .single (.store own htakes)
  | deleteScript name => exact .single (.deleteScript name)
  | @upsertLimit key own limit =>
      cases hwrite : db.upsertLimit key limit with
      | error e => rw [Action.upsertLimit, left_change_of_error hwrite]
      | ok after =>
          rw [Action.upsertLimit, left_change_of_ok hwrite,
            Database.eq_storeLimit_of_upsertLimit hwrite]
          exact .single (.storeLimit own limit)
  | deleteLimit own => exact .single (.deleteLimit own)
  | @inTurn _ _ x f first second ihfirst ihsecond =>
      have hfirst := ihfirst db
      cases hx : x db with
      | ok a after =>
          rw [hx] at hfirst
          rw [run_bind_of_ok hx]
          exact hfirst.trans (ihsecond hx after)
      | error e after =>
          rw [hx] at hfirst
          rw [run_bind_of_error hx]
          exact hfirst

/-- The same work on databases with the same rows of the subject gives the same answer, or the same
failure, and leaves databases with the same rows of the subject. -/
theorem About.same (h : act.About subject) (h₁ : db₁.Schema) (h₂ : db₂.Schema)
    (ho : owners subject) (hk : keys subject) (hdefault : keys "")
    (hsame : db₁.SameRows owners keys db₂) :
    answer (act db₁) = answer (act db₂) ∧
      (left (act db₁)).SameRows owners keys (left (act db₂)) := by
  induction h generalizing db₁ db₂ with
  | give a => exact ⟨rfl, hsame⟩
  | refuse e => exact ⟨rfl, hsame⟩
  | findAll =>
      rw [Action.findAll, answer_query, answer_query, left_query, left_query]
      exact ⟨congrArg _ (hsame.findAll h₁ h₂ ho), hsame⟩
  | findActive =>
      rw [Action.findActive, answer_query, answer_query, left_query, left_query]
      exact ⟨congrArg _ (hsame.findActive h₁ h₂ ho), hsame⟩
  | findScript name =>
      rw [Action.findScript, answer_query, answer_query, left_query, left_query]
      exact ⟨congrArg _ (hsame.findScript h₁ h₂ ho name), hsame⟩
  | @findLimit key own =>
      have hkey : keys key.storageKey := by
        rcases own with own | own
        · exact own ▸ hk
        · exact own ▸ hdefault
      rw [Action.findLimit, answer_query, answer_query, left_query, left_query]
      exact ⟨congrArg _ (hsame.findLimit h₁ h₂ hkey), hsame⟩
  | @upsertScript s own =>
      rcases hsame.upsertScript (own ▸ ho : owners s.owner) with ⟨e, he₁, he₂⟩ | ⟨hs₁, hs₂⟩
      · rw [Action.upsertScript, change_of_error he₁, change_of_error he₂]
        exact ⟨rfl, hsame⟩
      · rw [Action.upsertScript, change_of_ok hs₁, change_of_ok hs₂]
        exact ⟨rfl, hsame.store h₁ h₂ s⟩
  | deleteScript name =>
      rw [deleteScript_run, deleteScript_run, hsame.scriptRow? h₁ h₂ ho name]
      exact ⟨rfl, hsame.deleteScript subject name⟩
  | @upsertLimit key own limit =>
      rcases limit.storable_or with hl | ⟨count, rfl, hl⟩
      · have hstore : ∀ db : Database, db.upsertLimit key limit = .ok (db.storeLimit key limit) :=
          fun _ => Database.upsertLimit_of_storable hl key
        rw [Action.upsertLimit, change_of_ok (hstore db₁), change_of_ok (hstore db₂)]
        exact ⟨rfl, hsame.storeLimit h₁ h₂ key limit⟩
      · have hrefuse : ∀ db : Database,
            db.upsertLimit key (.bytes count) = .error (.limitTooLarge count) :=
          fun _ => Database.upsertLimit_of_ge hl key
        rw [Action.upsertLimit, change_of_error (hrefuse db₁), change_of_error (hrefuse db₂)]
        exact ⟨rfl, hsame⟩
  | @deleteLimit key own =>
      have hkey : keys key.storageKey := own ▸ hk
      rw [deleteLimit_run, deleteLimit_run, hsame.quotaRow? h₁ h₂ hkey]
      exact ⟨rfl, hsame.deleteLimit key⟩
  | @inTurn _ _ x f first second ihfirst ihsecond =>
      obtain ⟨hanswer, hleft⟩ := ihfirst h₁ h₂ hsame
      have hschema₁ := (first.edits db₁).schema h₁
      have hschema₂ := (first.edits db₂).schema h₂
      rcases cases_of_answer_eq hanswer with ⟨a, after₁, after₂, hx₁, hx₂⟩ | ⟨e, after₁, after₂, hx₁, hx₂⟩
      · rw [hx₁] at hschema₁ hleft
        rw [hx₂] at hschema₂ hleft
        rw [run_bind_of_ok hx₁, run_bind_of_ok hx₂]
        exact ihsecond hx₁ hschema₁ hschema₂ hleft
      · rw [hx₁, hx₂] at hleft
        rw [run_bind_of_error hx₁, run_bind_of_error hx₂]
        exact ⟨rfl, hleft⟩

/-! ### Work built from statements -/

lemma About.map {β : Type} (h : act.About subject) (f : α → β) :
    (f <$> act : Action β).About subject := by
  rw [map_eq_pure_bind]
  exact h.inTurn fun _ => .give _

lemma About.discard (h : act.About subject) : (discard act).About subject :=
  h.map _

/-- A lookup that has to find something is about what the lookup is about. -/
lemma About.orFail {look : Action (Option α)} (h : look.About subject) (e : Failure) :
    (look >>= Repository.orFail e).About subject := by
  refine h.inTurn fun {_ _ found} _ => ?_
  cases found with
  | none => exact .refuse e
  | some a => exact .give a

/-- Scripts of the subject can be stored one after another. -/
lemma About.forM {scripts : List Script} (h : ∀ s ∈ scripts, s.owner = subject) :
    (scripts.forM Action.upsertScript).About subject := by
  induction scripts with
  | nil => exact .give _
  | cons s rest ih =>
      refine (About.upsertScript (h s List.mem_cons_self)).inTurn fun _ => ?_
      exact ih fun q hq => h q (List.mem_cons_of_mem s hq)

end Action

/-! ### Operations -/

namespace Repository

open FilterStore.Action

variable {owner name : String}

/-- A lookup that succeeds gives what it reads. -/
lemma read_of_query {α : Type} {read : Database → Except StorageFault α} {db after : Database}
    {a : α} (h : query read db = .ok a after) : read db = .ok a := by
  cases hread : read db with
  | ok b =>
      rw [query_of_ok hread] at h
      cases h
      rfl
  | error f =>
      rw [query_of_error hread] at h
      cases h

/-- A lookup that has to find something and succeeds gives what it finds. -/
lemma read_of_required {α : Type} {read : Database → Except StorageFault (Option α)} {e : Failure}
    {db after : Database} {a : α} (h : (query read >>= orFail e) db = .ok a after) :
    read db = .ok (some a) := by
  rcases hread : read db with f | _ | b
  · rw [required_of_error e hread] at h
    cases h
  · rw [required_of_none e hread] at h
    cases h
  · rw [required_of_some e hread] at h
    cases h
    rfl

/-- The space check looks at the owner's scripts, the owner's limit and the default limit. -/
lemma about_checkSpace (owner name : String) (size : UInt64) :
    (checkSpace owner name size).About owner := by
  refine About.findAll.inTurn fun _ => ?_
  have hown : (Action.findLimit (.owner owner)).About owner := .findLimit (.inl rfl)
  have hdefault : (Action.findLimit .default).About owner := .findLimit (.inr rfl)
  refine hown.inTurn fun _ => ?_
  refine hdefault.inTurn fun _ => ?_
  dsimp only
  split
  · exact .give _
  · exact .refuse _

lemma about_switchOff (owner : String) : (switchOff owner).About owner := by
  refine About.findActive.inTurn fun {_ _ found} hfound => ?_
  cases found with
  | none => exact .give _
  | some s =>
      have hs : s.owner = owner := Database.owner_of_findActive (read_of_query hfound)
      exact (About.upsertScript (s := s.deactivate) hs).inTurn fun _ => .give _

/-! ### Methods -/

/-- The method is one transaction about a subject, and its answer is made from what the transaction
gives. -/
def IsWork {α : Type} (operation subject : String) (method : Method α) : Prop :=
  ∃ (β : Type) (act : Action β) (report : β → List Event) (form : β → Except Failure α),
    act.About subject ∧
      ∀ db, method db = (inTransaction operation subject act report db).andThen form

section Methods

variable {α β : Type} {operation subject : String}

lemma isWork_inTransaction {act : Action α} (h : act.About subject) (report : α → List Event) :
    IsWork operation subject (inTransaction operation subject act report) := by
  refine ⟨α, act, report, .ok, h, fun db => ?_⟩
  rw [Outcome.andThen_ok]

lemma IsWork.andThen {method : Method α} (h : IsWork operation subject method)
    (f : α → Except Failure β) : IsWork operation subject fun db => (method db).andThen f := by
  obtain ⟨γ, act, report, form, habout, hmethod⟩ := h
  refine ⟨γ, act, report, fun c => (form c).bind f, habout, fun db => ?_⟩
  show (method db).andThen f = _
  rw [hmethod, Outcome.andThen_andThen]

lemma IsWork.map {method : Method α} (h : IsWork operation subject method) (f : α → β) :
    IsWork operation subject fun db => (method db).map f := by
  have hmap := h.andThen fun a => .ok (f a)
  simpa only [← Outcome.map_eq_andThen] using hmap

/-- Checks that are passed make no difference. -/
lemma IsWork.afterChecks {checks : Except Failure Unit} (hc : checks = .ok ()) {method : Method α}
    (h : IsWork operation subject method) :
    IsWork operation subject (Repository.afterChecks checks method) := by
  have hsame : Repository.afterChecks checks method = method :=
    funext fun _ => afterChecks_of_ok hc method
  rwa [hsame]

/-- What such a method leaves comes from changes to the rows of its subject. -/
lemma IsWork.edits {method : Method α} (h : IsWork operation subject method) (db : Database) :
    Database.Edits subject db (method db).database := by
  obtain ⟨β, act, report, form, habout, hmethod⟩ := h
  have hleft := habout.edits db
  rw [hmethod]
  show Database.Edits subject db (inTransaction operation subject act report db).database
  cases hact : act db with
  | ok a after =>
      rw [hact] at hleft
      rw [inTransaction_of_ok hact]
      exact hleft
  | error e after =>
      rw [inTransaction_of_error hact]
      exact .refl

/-- Such a method does the same on databases with the same rows of its subject. -/
lemma IsWork.same {method : Method α} (h : IsWork operation subject method)
    {db₁ db₂ : Database} {owners keys : String → Prop} (h₁ : db₁.Schema) (h₂ : db₂.Schema)
    (ho : owners subject) (hk : keys subject) (hdefault : keys "")
    (hsame : db₁.SameRows owners keys db₂) :
    (method db₁).result = (method db₂).result ∧ (method db₁).events = (method db₂).events ∧
      (method db₁).database.SameRows owners keys (method db₂).database := by
  obtain ⟨β, act, report, form, habout, hmethod⟩ := h
  obtain ⟨hanswer, hleft⟩ := habout.same h₁ h₂ ho hk hdefault hsame
  rw [hmethod, hmethod]
  rcases cases_of_answer_eq hanswer with ⟨a, after₁, after₂, hact₁, hact₂⟩ | ⟨e, _, _, hact₁, hact₂⟩
  · rw [hact₁, hact₂] at hleft
    rw [inTransaction_of_ok hact₁, inTransaction_of_ok hact₂]
    exact ⟨rfl, rfl, hleft⟩
  · rw [inTransaction_of_error hact₁, inTransaction_of_error hact₂]
    exact ⟨rfl, rfl, hsame⟩

end Methods

/-! ### The methods of the repository -/

lemma isWork_put {content : String} (hc : checkScript owner name = .ok ()) :
    IsWork "put_script" owner (put owner name content) := by
  refine .afterChecks hc (isWork_inTransaction ?_ _)
  refine (about_checkSpace owner name _).inTurn fun _ => ?_
  refine (About.findScript name).inTurn fun {_ _ found} _ => ?_
  cases found with
  | none => exact .upsertScript rfl
  | some previous => exact .upsertScript rfl

lemma isWork_activate (now : Instant) (owner name : String) :
    IsWork "set_active" owner (activate now owner name) := by
  refine isWork_inTransaction ?_ _
  refine ((About.findScript name).orFail _).inTurn fun {_ _ target} htarget => ?_
  refine About.findActive.inTurn fun {_ _ current} hcurrent => ?_
  refine .forM fun s hs => ?_
  rcases mem_switchOver hs with rfl | ⟨other, rfl, rfl⟩
  · exact Database.owner_of_findScript (s := target) (read_of_required htarget)
  · exact Database.owner_of_findActive (s := other) (read_of_query hcurrent)

lemma isWork_setActive (ho : checkOwner owner = .ok ()) (now : Instant) (name : String) :
    IsWork "set_active" owner (setActive now owner name) := by
  refine .afterChecks ho ?_
  split
  · exact (isWork_inTransaction (about_switchOff owner) _).map _
  · exact isWork_activate now owner name

lemma isWork_delete (ho : checkOwner owner = .ok ()) (name : String) :
    IsWork "delete_script" owner (delete owner name) := by
  refine .afterChecks ho (isWork_inTransaction ?_ _)
  refine ((About.findScript name).orFail _).inTurn fun _ => ?_
  split
  · exact .refuse _
  · exact (About.deleteScript name).discard

lemma isWork_rename {target : String} (hc : checkScript owner target = .ok ()) (source : String) :
    IsWork "rename_script" owner (rename owner source target) := by
  refine .afterChecks hc (isWork_inTransaction ?_ _)
  refine ((About.findScript source).orFail _).inTurn fun {_ _ s} hsource => ?_
  refine (About.findScript target).inTurn fun {_ _ found} _ => ?_
  cases found with
  | some p => exact .refuse _
  | none =>
      have hs : s.owner = owner := Database.owner_of_findScript (read_of_required hsource)
      exact (About.deleteScript source).discard.inTurn fun _ =>
        .upsertScript (s := s.renamed target) hs

lemma isWork_haveSpace (ho : checkOwner owner = .ok ()) (name : String) (size : UInt64) :
    IsWork "have_space" owner (haveSpace owner name size) :=
  .afterChecks ho (isWork_inTransaction (about_checkSpace owner name size) _)

lemma isWork_list (ho : checkOwner owner = .ok ()) : IsWork "list_scripts" owner (list owner) :=
  .afterChecks ho (isWork_inTransaction (About.findAll.map _) _)

lemma isWork_get (ho : checkOwner owner = .ok ()) (name : String) :
    IsWork "get_script" owner (get owner name) :=
  .afterChecks ho (isWork_inTransaction (((About.findScript name).orFail _).map _) _)

lemma isWork_active (ho : checkOwner owner = .ok ()) :
    IsWork "get_active" owner (active owner) :=
  .afterChecks ho (isWork_inTransaction (About.findActive.orFail _) _)

lemma isWork_hasQuota (key : QuotaKey) (hk : checkKey key = .ok ()) :
    IsWork "has_quota" key.storageKey (hasQuota key) :=
  .afterChecks hk (isWork_inTransaction ((About.findLimit (.inl rfl)).map _) _)

lemma isWork_getQuota (key : QuotaKey) (hk : checkKey key = .ok ()) :
    IsWork "get_quota" key.storageKey (getQuota key) :=
  .afterChecks hk (isWork_inTransaction ((About.findLimit (.inl rfl)).orFail _) _)

lemma isWork_setQuota (key : QuotaKey) (hk : checkKey key = .ok ()) (limit : Limit) :
    IsWork "set_quota" key.storageKey (setQuota key limit) :=
  .afterChecks hk (isWork_inTransaction (.upsertLimit rfl limit) _)

lemma isWork_removeQuota (key : QuotaKey) (hk : checkKey key = .ok ()) :
    IsWork "remove_quota" key.storageKey (removeQuota key) :=
  .afterChecks hk ((isWork_inTransaction (.deleteLimit rfl) _).map _)

end Repository

/-! ### Operations -/

namespace Operation

open Repository

variable {now : Instant} {op : Operation} {db db₁ db₂ : Database} {owners keys : String → Prop}

/-- Behind its name checks an operation is one transaction about its subject. -/
theorem isWork (hc : op.checks = .ok ()) (now : Instant) :
    IsWork op.label op.subject (op.run now) := by
  cases op with
  | haveSpace owner name size => exact (isWork_haveSpace hc name size).map _
  | put owner name content => exact (isWork_put hc).map _
  | list owner => exact (isWork_list hc).map _
  | get owner name => exact (isWork_get hc name).map _
  | getActive owner => exact ((isWork_active hc).map _).map _
  | getActivationDate owner => exact ((isWork_active hc).andThen _).map _
  | setActive owner name => exact (isWork_setActive hc now name).map _
  | delete owner name => exact (isWork_delete hc name).map _
  | rename owner source target => exact (isWork_rename hc source).map _
  | hasDefaultQuota => exact (isWork_hasQuota .default hc).map _
  | getDefaultQuota => exact (isWork_getQuota .default hc).map _
  | setDefaultQuota limit => exact (isWork_setQuota .default hc limit).map _
  | removeDefaultQuota => exact (isWork_removeQuota .default hc).map _
  | hasQuota owner => exact (isWork_hasQuota (.owner owner) hc).map _
  | getQuota owner => exact (isWork_getQuota (.owner owner) hc).map _
  | setQuota owner limit => exact (isWork_setQuota (.owner owner) hc limit).map _
  | removeQuota owner => exact (isWork_removeQuota (.owner owner) hc).map _

/-- An operation changes rows of its subject only. -/
theorem edits_run (op : Operation) (now : Instant) (db : Database) :
    Database.Edits op.subject db (op.run now db).database := by
  cases hc : op.checks with
  | error e => rw [run_of_checks_error hc]
  | ok u => exact (isWork hc now).edits db

/-- An operation keeps the rules of the tables, whatever content it stores. -/
theorem schema_run (op : Operation) (now : Instant) (hdb : db.Schema) :
    (op.run now db).database.Schema :=
  (op.edits_run now db).schema hdb

/-- An operation leaves the rows of other subjects alone. -/
theorem others_run (op : Operation) (now : Instant) (hdb : db.Schema) (ho : ¬ owners op.subject)
    (hk : ¬ keys op.subject) : db.SameRows owners keys (op.run now db).database :=
  (op.edits_run now db).others hdb ho hk

/-- On databases with the same rows of its subject an operation answers and reports the same, and
leaves the same rows of the subject. -/
theorem same_run (op : Operation) (now : Instant) (h₁ : db₁.Schema) (h₂ : db₂.Schema)
    (ho : owners op.subject) (hk : keys op.subject) (hdefault : keys "")
    (hsame : db₁.SameRows owners keys db₂) :
    (op.run now db₁).result = (op.run now db₂).result ∧
      (op.run now db₁).events = (op.run now db₂).events ∧
      (op.run now db₁).database.SameRows owners keys (op.run now db₂).database := by
  cases hc : op.checks with
  | error e =>
      rw [run_of_checks_error hc, run_of_checks_error hc]
      exact ⟨rfl, rfl, hsame⟩
  | ok u => exact (isWork hc now).same h₁ h₂ ho hk hdefault hsame

end Operation

end FilterStore
