import FilterStore.Proofs.Repository.Soundness
import FilterStore.Proofs.Repository.Scope

/-!
Which writes leave a database that can be read.

* **Dates.** A date is read back from its stored form exactly if its year is one of 0 to 9999
  (`Instant.survives_iff`): a year outside is written with a sign, and no date begins with one.
* **Rows.** `Database.Readable` says that every row can be read. A script that is stored in such a
  database leaves it readable exactly if its date is of these years (`readable_store_iff`).
* **Operations.** `Operation.carriedDate` is the date that an operation reads in a row and writes
  again. Such a date may be read at an offset that takes it out of the years 0 to 9999, and this is
  the only way in which an operation makes a database unreadable (`readable_run_iff`).
* **Steady tables.** `Database.Steady` says of tables within the rules that what can be read in them
  has a date of these years. Every operation keeps that at every time on the clock (`steady_run`):
  what it writes can be read again or not at all. Where it holds a database that can be read stays
  so (`readable_run_of_steady`).
-/

namespace FilterStore

/-! ### Dates -/

namespace Instant

/-- **Dates that are read back** are those of the years 0 to 9999. -/
theorem survives_iff {t : Instant} : t.Survives ↔ t.HasPlainYear :=
  ⟨Timestamp.hasPlainYear_of_read_write, HasPlainYear.survives⟩

end Instant

/-! ### Rows that can be read -/

lemma ScriptRow.readable_iff {r : ScriptRow} : r.Readable ↔ ¬ r.Unreadable := by
  rw [← script_eq_error_iff, Readable]
  cases r.script <;> simp

lemma QuotaRow.readable_iff {r : QuotaRow} : r.Readable ↔ ¬ r.Unreadable := by
  have herror : (∃ f, r.meaning = .error f) ↔ r.Unreadable := by
    simp only [meaning_eq_error_iff, exists_and_left, exists_eq, and_true]
  rw [← herror, Readable]
  cases r.meaning <;> simp

instance (r : ScriptRow) : Decidable r.Readable :=
  decidable_of_iff (r.script.toOption.isSome = true) <| by
    rw [ScriptRow.Readable]
    cases r.script <;> simp [Except.toOption]

instance (r : QuotaRow) : Decidable r.Readable :=
  decidable_of_iff (r.meaning.toOption.isSome = true) <| by
    rw [QuotaRow.Readable]
    cases r.meaning <;> simp [Except.toOption]

/-- A script that can be stored leaves a row that can be read exactly if its date is of the years 0
to 9999. -/
lemma Script.stored_readable_iff {s : Script} (hs : s.Storable) (hc : s.Coherent) :
    s.stored.Readable ↔ ∀ t ∈ s.activatedAt, t.HasPlainYear := by
  constructor
  · rintro ⟨u, hu⟩ t ht
    have hdate := (ScriptRow.script_eq_ok_iff.mp hu).date
    have htext : s.stored.activatedAt = some (Timestamp.write t) :=
      congrArg (Option.map Timestamp.write) ht
    cases hread : Timestamp.read (Timestamp.write t) with
    | ok v => exact Timestamp.hasPlainYear_of_read_write hread
    | error fault => simp [ScriptRow.readDate, htext, hread] at hdate
  · intro hplain
    exact ⟨s, ScriptRow.script_stored hs hc fun t ht => (hplain t ht).survives⟩

namespace Database

/-- Every row can be read. -/
structure Readable (db : Database) : Prop where
  /-- The scripts can be read. -/
  scripts : ∀ r ∈ db.scripts, r.Readable
  /-- The quota entries can be read. -/
  quotas : ∀ r ∈ db.quotas, r.Readable

instance (db : Database) : Decidable db.Readable :=
  decidable_of_iff ((∀ r ∈ db.scripts, r.Readable) ∧ ∀ r ∈ db.quotas, r.Readable)
    ⟨fun ⟨hs, hq⟩ => ⟨hs, hq⟩, fun h => ⟨h.scripts, h.quotas⟩⟩

variable {db : Database}

/-- A script that is taken leaves the database readable exactly if its date is of the years 0 to
9999. -/
theorem readable_store_iff (hdb : db.Schema) (hread : db.Readable) {s : Script} (ht : db.Takes s) :
    (db.store s).Readable ↔ ∀ t ∈ s.activatedAt, t.HasPlainYear := by
  rw [← Script.stored_readable_iff ht.storable ht.coherent]
  constructor
  · intro h
    exact h.scripts _ ((mem_store hdb).mpr (.inl rfl))
  · refine fun h => ⟨fun r hr => ?_, hread.quotas⟩
    rcases (mem_store hdb).mp hr with rfl | ⟨hr, -⟩
    · exact h
    · exact hread.scripts r hr

lemma Readable.upsertLimit (hdb : db.Schema) (hread : db.Readable) {key : QuotaKey} {limit : Limit}
    {after : Database} (h : db.upsertLimit key limit = .ok after) : after.Readable := by
  have hl : limit.Storable := by
    rcases limit.storable_or with hl | ⟨count, rfl, hl⟩
    · exact hl
    · rw [upsertLimit_of_ge hl] at h
      cases h
  rw [eq_storeLimit_of_upsertLimit h]
  refine ⟨hread.scripts, fun r hr => ?_⟩
  rcases (mem_storeLimit hdb).mp hr with rfl | ⟨hr, -⟩
  · exact ⟨limit, Limit.meaning_stored hl key⟩
  · exact hread.quotas r hr

end Database

/-! ### Operations -/

namespace Operation

open Repository

variable {now : Instant} {op : Operation} {db : Database}

/-- The date that an operation reads in the row of a script and writes again. -/
def carriedDate (db : Database) : Operation → Option Instant
  | .put owner name _ | .rename owner name _ =>
    match db.findScript owner name with
    | .ok (some s) => s.activatedAt
    | _ => none
  | _ => none

/-- The dates that an operation writes are the time of the clock and the date it carries. -/
lemma Made.date {s : Script} (h : Made now db op s) {t : Instant} (ht : t ∈ s.activatedAt) :
    t = now ∨ t ∈ op.carriedDate db := by
  cases h with
  | @put owner name content previous names found =>
      cases previous with
      | none => cases ht
      | some p =>
          refine .inr ?_
          simp only [carriedDate, found]
          exact ht
  | off found => cases ht
  | on found =>
      cases ht
      exact .inl rfl
  | renamed names found =>
      refine .inr ?_
      simp only [carriedDate, found]
      exact ht

/-- Whatever content is stored, an operation leaves the database as it was, or succeeds and makes
one of its writes; the scripts that it writes then fit their rows. -/
lemma writes_run (hdb : db.Schema) (op : Operation) (now : Instant) :
    (op.run now db).database = db ∨
      (op.run now db).result = .ok .done ∧
        (∃ event, Writes now db op event (op.run now db).database) ∧
        ∀ s, Made now db op s → s.Storable ∧ s.Coherent := by
  by_cases hput : ∃ owner name content, op = .put owner name content
  · obtain ⟨owner, name, content, rfl⟩ := hput
    rw [run]
    rcases put_cases owner name content db with
      ⟨e, -, hsame⟩ | ⟨previous, names, verdict, found, takes, hrun⟩
    · exact .inl hsame
    · rw [hrun]
      refine .inr ⟨rfl, ⟨_, .put names verdict found⟩, fun s hs => ?_⟩
      cases hs with
      | put names' found' =>
          obtain rfl := Except.ok.inj (found'.symm.trans found)
          exact ⟨takes.storable, takes.coherent⟩
  · have hfit : op.Fits := by
      cases op with
      | put owner name content => exact absurd ⟨owner, name, content, rfl⟩ hput
      | _ => trivial
    have hmade : ∀ s, Made now db op s → s.Storable ∧ s.Coherent := by
      intro s hs
      cases hs with
      | put names found => exact absurd ⟨_, _, _, rfl⟩ hput
      | off found =>
          obtain ⟨r, -, -, -, hr⟩ := Database.shows_of_findActive hdb found
          exact ⟨hr.storable, Script.coherent_deactivate _⟩
      | on found =>
          obtain ⟨r, -, -, -, hr⟩ := Database.shows_of_findScript hdb found
          exact ⟨hr.storable, Script.coherent_activate _ now⟩
      | renamed names found =>
          obtain ⟨r, -, -, -, hr⟩ := Database.shows_of_findScript hdb found
          exact ⟨hr.storable, hr.coherent⟩
    rcases run_cases hdb hfit now with ⟨e, -, hrun⟩ | hends
    · rw [hrun]
      exact .inl rfl
    · generalize op.run now db = o at hends
      cases hends with
      | refused e => exact .inl rfl
      | answered a => exact .inl rfl
      | wrote writes => exact .inr ⟨rfl, ⟨_, writes⟩, hmade⟩

/-- An operation that fails changes nothing. -/
lemma database_of_error (hdb : db.Schema) {e : Failure} (h : (op.run now db).result = .error e) :
    (op.run now db).database = db := by
  rcases writes_run hdb op now with hsame | ⟨hok, -, -⟩
  · exact hsame
  · rw [hok] at h
    cases h

/-- If the date that an operation carries is of the years 0 to 9999, the rows that it writes can be
read. -/
lemma scripts_run (hdb : db.Schema) (hnow : now.HasPlainYear)
    (hdate : ∀ t ∈ op.carriedDate db, t.HasPlainYear) {r : ScriptRow}
    (hr : r ∈ (op.run now db).database.scripts) : r ∈ db.scripts ∨ r.Readable := by
  rcases writes_run hdb op now with hsame | ⟨-, ⟨event, writes⟩, hmade⟩
  · rw [hsame] at hr
    exact .inl hr
  · refine (writes.scripts hdb hr).imp_right ?_
    rintro ⟨s, rfl, hs⟩
    obtain ⟨hstorable, hcoherent⟩ := hmade s hs
    refine (Script.stored_readable_iff hstorable hcoherent).mpr fun t ht => ?_
    rcases hs.date ht with rfl | hcarried
    · exact hnow
    · exact hdate t hcarried

/-- The limits that an operation writes can be read. -/
lemma quotas_run (hdb : db.Schema) (op : Operation) (now : Instant) {r : QuotaRow}
    (hr : r ∈ (op.run now db).database.quotas) : r ∈ db.quotas ∨ r.Readable := by
  rcases writes_run hdb op now with hsame | ⟨-, ⟨event, writes⟩, -⟩
  · rw [hsame] at hr
    exact .inl hr
  · refine (writes.quotas hdb hr).imp_right ?_
    rintro ⟨key, limit, rfl, hl⟩
    cases hl with
    | default storable => exact ⟨limit, Limit.meaning_stored storable _⟩
    | owner named storable => exact ⟨limit, Limit.meaning_stored storable _⟩

/-- An operation that succeeds and carries a date writes it. -/
lemma exists_carried (hdb : db.Schema) {t : Instant} (ht : t ∈ op.carriedDate db)
    (hok : ∃ a, (op.run now db).result = .ok a) :
    ∃ s : Script, s.stored ∈ (op.run now db).database.scripts ∧ s.Storable ∧ s.Coherent ∧
      t ∈ s.activatedAt := by
  cases op with
  | put owner name content =>
      obtain ⟨a, ha⟩ := hok
      rcases put_cases owner name content db with
        ⟨e, herror, -⟩ | ⟨previous, -, -, found, takes, hrun⟩
      · simp [run, Outcome.map, herror, Except.map] at ha
      · simp only [carriedDate, found] at ht
        cases previous with
        | none => cases ht
        | some p =>
            refine ⟨_, ?_, takes.storable, takes.coherent, ht⟩
            rw [run, hrun]
            exact (Database.mem_store hdb).mpr (.inl rfl)
  | rename owner source target =>
      cases hc : (Operation.rename owner source target).checks with
      | error e =>
          obtain ⟨a, ha⟩ := hok
          rw [run_of_checks_error hc] at ha
          cases ha
      | ok u =>
          rw [run, rename_eq hdb hc] at hok ⊢
          rcases hfind : db.findScript owner source with f | _ | s
          · simp [carriedDate, hfind] at ht
          · simp [carriedDate, hfind] at ht
          · rcases htarget : db.findScript owner target with f | _ | p
            · simp [hfind, htarget, Outcome.map, Outcome.refused, Except.map] at hok
            · have takes := takes_renamed hdb hfind target
              simp only [carriedDate, hfind] at ht
              exact ⟨_, (Database.mem_store hdb.deleteScript).mpr (.inl rfl), takes.storable,
                takes.coherent, ht⟩
            · simp [hfind, htarget, Outcome.map, Outcome.refused, Except.map] at hok
  | _ => cases ht

/-- Where every row can be read no operation answers with trouble of the database. -/
lemma not_storage_of_readable (hdb : db.Schema) (hread : db.Readable) (hfit : op.Fits)
    (now : Instant) (f : StorageFault) : (op.run now db).result ≠ .error (.storage f) := by
  intro h
  have htroubled := (consult_fails_iff hdb).mp ⟨f, consult_of_storage hdb hfit h⟩
  rcases htroubled.exists_unreadable with ⟨r, hr, hu⟩ | ⟨r, hr, hu⟩
  · exact ScriptRow.readable_iff.mp (hread.scripts r hr) hu
  · exact QuotaRow.readable_iff.mp (hread.quotas r hr) hu

/-- An operation leaves a readable database readable exactly if it fails or the date that it carries
is of the years 0 to 9999. -/
theorem readable_run_iff (hdb : db.Schema) (hread : db.Readable) (hnow : now.HasPlainYear) :
    (op.run now db).database.Readable ↔
      ((∃ a, (op.run now db).result = .ok a) → ∀ t ∈ op.carriedDate db, t.HasPlainYear) := by
  constructor
  · intro hafter hok t ht
    obtain ⟨s, hs, hstorable, hcoherent, hdate⟩ := exists_carried hdb ht hok
    exact (Script.stored_readable_iff hstorable hcoherent).mp (hafter.scripts _ hs) t hdate
  · intro hdate
    cases hrun : (op.run now db).result with
    | error e =>
        rw [database_of_error hdb hrun]
        exact hread
    | ok a =>
        refine ⟨fun r hr => ?_, fun r hr => ?_⟩
        · exact (scripts_run hdb hnow (hdate ⟨a, hrun⟩) hr).elim (hread.scripts r) id
        · exact (quotas_run hdb op now hr).elim (hread.quotas r) id

end Operation

/-! ### Steady tables -/

namespace Database

variable {db : Database}

/-- What can be read has a date of the years 0 to 9999, if it has one. -/
structure Steady (db : Database) : Prop where
  /-- The rules of the tables hold. -/
  schema : db.Schema
  /-- A script that can be read has such a date. -/
  dates : ∀ r ∈ db.scripts, ∀ s, r.Shows s → ∀ t ∈ s.activatedAt, t.HasPlainYear

lemma steady_empty : empty.Steady where
  schema := schema_empty
  dates _ h := nomatch h

namespace Steady

/-- So has what is found. -/
lemma date (h : db.Steady) {owner name : String} {s : Script}
    (hs : db.findScript owner name = .ok (some s)) : ∀ t ∈ s.activatedAt, t.HasPlainYear := by
  obtain ⟨r, hr, -, -, hrs⟩ := shows_of_findScript h.schema hs
  exact h.dates r hr s hrs

/-- So has what an operation reads and writes again. -/
lemma carriedDate (h : db.Steady) {op : Operation} :
    ∀ t ∈ op.carriedDate db, t.HasPlainYear := by
  have hfound : ∀ owner name, ∀ t ∈ (match db.findScript owner name with
      | .ok (some s) => s.activatedAt
      | _ => none), t.HasPlainYear := by
    intro owner name t ht
    rcases hfind : db.findScript owner name with f | _ | s
    · simp [hfind] at ht
    · simp [hfind] at ht
    · rw [hfind] at ht
      exact h.date hfind t ht
  cases op with
  | put owner name content => exact hfound owner name
  | rename owner source target => exact hfound owner source
  | _ => exact fun _ ht => nomatch ht

end Steady

end Database

namespace Operation

variable {now : Instant} {db : Database}

/-- Steady tables stay so after every operation, whatever the clock shows. -/
theorem steady_run (h : db.Steady) (op : Operation) (now : Instant) :
    (op.run now db).database.Steady := by
  refine ⟨op.schema_run now h.schema, fun r hr u hu => ?_⟩
  rcases writes_run h.schema op now with hsame | ⟨-, ⟨event, writes⟩, hmade⟩
  · rw [hsame] at hr
    exact h.dates r hr u hu
  · rcases writes.scripts h.schema hr with hr | ⟨s, rfl, hs⟩
    · exact h.dates r hr u hu
    · obtain ⟨hstorable, hcoherent⟩ := hmade s hs
      have hread := ScriptRow.script_eq_ok_iff.mpr hu
      have hplain := (Script.stored_readable_iff hstorable hcoherent).mp ⟨u, hread⟩
      have hself := ScriptRow.script_stored hstorable hcoherent fun t ht => (hplain t ht).survives
      rw [Except.ok.inj (hread.symm.trans hself)]
      exact hplain

/-- In steady tables every operation leaves a readable database readable. -/
theorem readable_run_of_steady (h : db.Steady) (hread : db.Readable) (op : Operation)
    (hnow : now.HasPlainYear) : (op.run now db).database.Readable :=
  (readable_run_iff h.schema hread hnow).mpr fun _ => h.carriedDate

end Operation

/-! ### Writes -/

namespace Database

/-- **Writes and reading**: in a database in which every row can be read, an operation that succeeds
leaves a row that cannot be read exactly if it carries a date out of the years 0 to 9999, a script
that is stored does so exactly if its own date is out of these years, and a limit that is stored
never does. Where every row can be read no operation answers with trouble of the database. -/
theorem readable_after_iff {db : Database} (hdb : db.Schema) (hread : db.Readable) :
    (∀ (op : Operation) (now : Instant), now.HasPlainYear →
      let after := (op.run now db).database
      (after.Readable ↔
        ((∃ a, (op.run now db).result = .ok a) → ∀ t ∈ op.carriedDate db, t.HasPlainYear)) ∧
      (after.Readable → ∀ (next : Operation) (later : Instant), next.Fits →
        ∀ f, (next.run later after).result ≠ .error (.storage f))) ∧
    (∀ (s : Script) (after : Database), db.upsertScript s = .ok after →
      (after.Readable ↔ ∀ t ∈ s.activatedAt, t.HasPlainYear)) ∧
    ∀ (key : QuotaKey) (limit : Limit) (after : Database), db.upsertLimit key limit = .ok after →
      after.Readable := by
  refine ⟨fun op now hnow => ⟨Operation.readable_run_iff hdb hread hnow, ?_⟩, ?_, ?_⟩
  · intro hafter next later hfit f
    exact Operation.not_storage_of_readable (op.schema_run now hdb) hafter hfit later f
  · intro s after hs
    obtain ⟨takes, rfl⟩ := takes_of_upsertScript hs
    exact readable_store_iff hdb hread takes
  · intro key limit after hl
    exact hread.upsertLimit hdb hl

/-- A content over an active script keeps its date, which is written in another form and read
back. -/
theorem readable_after_iff_put :
    let row : ScriptRow := ⟨"ann", "day", "keep;", 5, 1, some "2024-01-01T00:00:00+02:00"⟩
    let db : Database := ⟨[row], []⟩
    let op : Operation := .put "ann" "day" "stop;"
    let s : Script := Script.fresh "bob" "day" "keep;"
    db.Schema ∧ db.Readable ∧ Instant.epoch.HasPlainYear ∧
      (op.run .epoch db).database.Readable ∧
      (op.run .epoch db).database.scripts =
        [⟨"ann", "day", "stop;", 5, 1, some "2023-12-31T22:00:00+00:00"⟩] ∧
      (∃ after, db.upsertScript s = .ok after ∧ after.Readable) ∧
      ∃ after, db.upsertLimit .default (.bytes 5) = .ok after ∧ after.Readable := by
  intro row db op s
  have hdb : db.Schema := by decide +kernel
  have hread : db.Readable := by decide +kernel
  obtain ⟨hops, hscripts, hlimits⟩ := readable_after_iff hdb hread
  have hcarried : ∀ t ∈ op.carriedDate db, t.HasPlainYear := by decide +kernel
  have hs : db.upsertScript s = .ok (db.store s) := by decide +kernel
  have hl : db.upsertLimit .default (.bytes 5) = .ok (db.storeLimit .default (.bytes 5)) := by
    decide +kernel
  exact ⟨hdb, hread, Instant.hasPlainYear_epoch,
    (hops op .epoch Instant.hasPlainYear_epoch).1.mpr fun _ => hcarried, by decide +kernel,
    ⟨_, hs, (hscripts s _ hs).mpr fun _ ht => nomatch ht⟩, ⟨_, hl, hlimits _ _ _ hl⟩⟩

/-- The last hour of the year 9999 west of universal time is read, and belongs to the year 10000. A
content over a script with this date is stored, and its owner's scripts cannot be listed any
more. -/
theorem not_readable_after_put :
    let row : ScriptRow := ⟨"ann", "day", "keep;", 5, 1, some "9999-12-31T23:59:59-01:00"⟩
    let db : Database := ⟨[row], []⟩
    let outcome := (Operation.put "ann" "day" "stop;").run .epoch db
    db.Schema ∧ db.Readable ∧ Instant.epoch.HasPlainYear ∧ outcome.result = .ok .done ∧
      ¬ outcome.database.Readable ∧
      ((Operation.list "ann").run .epoch outcome.database).result =
        .error (.storage (.unreadableDate .invalid)) := by
  decide +kernel

end Database

end FilterStore
