import FilterStore.Proofs.Repository.Step

/-!
When an operation answers with trouble of the database.

* **Rows.** `Database.UnreadableScript` and its siblings say that the rows a query is about hold one
  that cannot be read.
* **Lookups in order.** `Operation.consult` makes the lookups of an operation in their order and
  stops at the first that fails. An operation answers with trouble of the database exactly if a
  lookup fails, and with the fault of that lookup (`storage_run_iff`).
* **The rows consulted.** In terms of rows this is `Operation.Troubled`
  (`consult_fails_iff`), and no write of an operation ever breaks a rule of the tables
  (`storage_iff_troubled`).
-/

namespace FilterStore

section Results

variable {α β ε : Type}

@[simp] lemma discard_error (e : ε) : (discard (.error e : Except ε α)) = .error e := rfl

@[simp] lemma discard_ok (a : α) : (discard (.ok a : Except ε α)) = .ok () := rfl

lemma discard_error_iff {x : Except ε α} {e : ε} : discard x = .error e ↔ x = .error e := by
  cases x <;> simp

/-- Two steps fail with the fault of the first, or of the second after what the first gave. -/
lemma bind_error_iff {x : Except ε α} {g : α → Except ε β} {e : ε} :
    x >>= g = .error e ↔ x = .error e ∨ ∃ a, x = .ok a ∧ g a = .error e := by
  cases x <;> simp [bind, Except.bind]

@[simp] lemma Outcome.map_error_iff {o : Outcome α} {g : α → β} {e : Failure} :
    (o.map g).result = .error e ↔ o.result = .error e := by
  rw [Outcome.map]
  cases o.result <;> simp [Except.map]

@[simp] lemma Outcome.refused_error_iff {operation owner : String} {e e' : Failure} {db : Database} :
    (Outcome.refused operation owner e db : Outcome α).result = .error e' ↔ e = e' := by
  rw [Outcome.refused, Except.error.injEq]

end Results

/-! ### Rows that cannot be read -/

namespace Database

/-- The table holds a script of this owner and name. -/
def HasScript (db : Database) (owner name : String) : Prop :=
  ∃ r ∈ db.scripts, r.owner = owner ∧ r.name = name

/-- A row of the owner cannot be read. -/
def UnreadableOwner (db : Database) (owner : String) : Prop :=
  ∃ r ∈ db.scripts, r.owner = owner ∧ r.Unreadable

/-- The row of this owner and name cannot be read. -/
def UnreadableScript (db : Database) (owner name : String) : Prop :=
  ∃ r ∈ db.scripts, r.owner = owner ∧ r.name = name ∧ r.Unreadable

/-- The marked row of the owner cannot be read. -/
def UnreadableActive (db : Database) (owner : String) : Prop :=
  ∃ r ∈ db.scripts, r.owner = owner ∧ r.Marked ∧ r.Unreadable

/-- The quota row of this key cannot be read. -/
def UnreadableLimit (db : Database) (key : QuotaKey) : Prop :=
  ∃ r ∈ db.quotas, r.key = key.storageKey ∧ r.Unreadable

variable {db : Database} {owner name : String}

lemma UnreadableScript.hasScript (h : db.UnreadableScript owner name) : db.HasScript owner name := by
  obtain ⟨r, hr, ho, hn, -⟩ := h
  exact ⟨r, hr, ho, hn⟩

/-- A script that can be looked up is found exactly if the table holds it. -/
lemma isSome_iff_hasScript (h : db.Schema) {found : Option Script}
    (hfind : db.findScript owner name = .ok found) :
    found.isSome = true ↔ db.HasScript owner name := by
  cases found with
  | none =>
      have hnone := scriptRow?_eq_none_iff.mp (optionMapM_eq_none_iff.mp hfind)
      refine ⟨nofun, ?_⟩
      rintro ⟨r, hr, hkey⟩
      exact absurd hkey (hnone r hr)
  | some s =>
      obtain ⟨r, hr, ho, hn, -⟩ := shows_of_findScript h hfind
      exact ⟨fun _ => ⟨r, hr, ho, hn⟩, fun _ => rfl⟩

end Database

namespace Operation

open Repository

variable {op : Operation} {db : Database} {f : StorageFault}

/-! ### The lookups of an operation -/

/-- The lookups of the space check. -/
def consultSpace (db : Database) (owner : String) : Except StorageFault Unit := do
  discard (db.findAll owner)
  discard (db.findLimit (.owner owner))
  discard (db.findLimit .default)

/-- The lookups of an operation in their order, up to the first that fails. -/
def consult (db : Database) : Operation → Except StorageFault Unit
  | .haveSpace owner _ _ | .put owner _ _ => consultSpace db owner
  | .list owner => discard (db.findAll owner)
  | .get owner name | .delete owner name => discard (db.findScript owner name)
  | .getActive owner | .getActivationDate owner => discard (db.findActive owner)
  | .setActive owner name =>
    if name = "" then discard (db.findActive owner)
    else do
      let target ← db.findScript owner name
      if target.isSome then discard (db.findActive owner) else pure ()
  | .rename owner source target => do
    let script ← db.findScript owner source
    if script.isSome then discard (db.findScript owner target) else pure ()
  | .hasQuota owner | .getQuota owner => discard (db.findLimit (.owner owner))
  | .hasDefaultQuota | .getDefaultQuota => discard (db.findLimit .default)
  | .setDefaultQuota _ | .removeDefaultQuota | .setQuota _ _ | .removeQuota _ => pure ()

/-- The verdict of the space check is trouble of the database exactly if one of its lookups is. -/
lemma spaceVerdict_storage_iff {owner name : String} {size : UInt64} :
    spaceVerdict owner name size db = .error (.storage f) ↔ consultSpace db owner = .error f := by
  rw [spaceVerdict, consultSpace]
  cases db.findAll owner with
  | error g => simp [Except.mapError, bind, Except.bind]
  | ok scripts =>
      cases db.findLimit (.owner owner) with
      | error g => simp [Except.mapError, bind, Except.bind]
      | ok own =>
          cases db.findLimit .default with
          | error g => simp [Except.mapError, bind, Except.bind]
          | ok default =>
              simp only [Except.mapError, bind, Except.bind, discard_ok]
              split_ifs <;> simp

section Quotas

variable (key : QuotaKey)

lemma storage_hasQuota_iff (hk : checkKey key = .ok ()) :
    (Repository.hasQuota key db).result = .error (.storage f) ↔ db.findLimit key = .error f := by
  rw [hasQuota_eq key hk]
  cases db.findLimit key <;> simp

lemma storage_getQuota_iff (hk : checkKey key = .ok ()) :
    (Repository.getQuota key db).result = .error (.storage f) ↔ db.findLimit key = .error f := by
  rw [getQuota_eq key hk]
  rcases db.findLimit key with g | _ | limit <;> simp

/-- To set an entry, nothing is looked up. -/
lemma setQuota_ne_storage (hk : checkKey key = .ok ()) (limit : Limit) :
    (Repository.setQuota key limit db).result ≠ .error (.storage f) := by
  rcases limit.storable_or with hl | ⟨count, rfl, hl⟩
  · simp [setQuota_stored key hk hl]
  · simp [setQuota_refused key hk hl]

/-- Nor is it to remove one. -/
lemma removeQuota_ne_storage (hk : checkKey key = .ok ()) :
    (Repository.removeQuota key db).result ≠ .error (.storage f) := by
  simp [removeQuota_eq key hk]

end Quotas

/-- An operation answers with trouble of the database exactly if one of its lookups fails, and then
with the fault of the first that does. -/
theorem storage_run_iff (hdb : db.Schema) (hfit : op.Fits) (hc : op.checks = .ok ())
    (now : Instant) :
    (op.run now db).result = .error (.storage f) ↔ consult db op = .error f := by
  cases op with
  | haveSpace owner name size =>
      rw [run, haveSpace_eq hc, consult, ← @spaceVerdict_storage_iff _ _ _ name size]
      cases spaceVerdict owner name size db <;> simp
  | put owner name content =>
      rw [run, consult, ← @spaceVerdict_storage_iff _ _ _ name (contentSize content)]
      cases hv : spaceVerdict owner name (contentSize content) db with
      | error e => simp [put_refused hc hv]
      | ok u =>
          obtain ⟨previous, -, hput⟩ := put_stored hdb hc hfit hv
          simp [hput]
  | list owner =>
      rw [run, list_eq hc, consult]
      cases db.findAll owner <;> simp
  | get owner name =>
      rw [run, get_eq hc, consult]
      rcases db.findScript owner name with g | _ | s <;> simp
  | getActive owner =>
      rw [run, Repository.getActive, active_eq hc, consult]
      rcases db.findActive owner with g | _ | s <;> simp
  | getActivationDate owner =>
      rw [run, Repository.getActivationDate, active_eq hc, consult]
      rcases db.findActive owner with g | _ | s
      · simp [Outcome.andThen, Outcome.refused, Except.bind]
      · simp [Outcome.andThen, Outcome.refused, Except.bind]
      · cases hdate : s.activatedAt <;> simp [hdate, Outcome.andThen, Except.bind]
  | setActive owner name =>
      rw [run, setActive_eq hc, consult]
      split_ifs with hname
      · rw [deactivate_eq hdb]
        rcases db.findActive owner with g | _ | s <;> simp
      · rw [activate_eq hdb]
        rcases db.findScript owner name with g | _ | target
        · simp [bind, Except.bind]
        · simp [bind, Except.bind, pure, Except.pure]
        · cases db.findActive owner <;> simp [bind, Except.bind]
  | delete owner name =>
      rw [run, delete_eq hc, consult]
      rcases db.findScript owner name with g | _ | s
      · simp
      · simp
      · cases ha : s.active <;> simp [ha]
  | rename owner source target =>
      rw [run, rename_eq hdb hc, consult]
      rcases db.findScript owner source with g | _ | s
      · simp [bind, Except.bind]
      · simp [bind, Except.bind, pure, Except.pure]
      · rcases db.findScript owner target with g | _ | p <;> simp [bind, Except.bind]
  | hasDefaultQuota =>
      rw [run, Outcome.map_error_iff, storage_hasQuota_iff .default hc, consult, discard_error_iff]
  | hasQuota owner =>
      rw [run, Outcome.map_error_iff, storage_hasQuota_iff (.owner owner) hc, consult,
        discard_error_iff]
  | getDefaultQuota =>
      rw [run, Outcome.map_error_iff, storage_getQuota_iff .default hc, consult, discard_error_iff]
  | getQuota owner =>
      rw [run, Outcome.map_error_iff, storage_getQuota_iff (.owner owner) hc, consult,
        discard_error_iff]
  | setDefaultQuota limit =>
      simp [run, setQuota_ne_storage .default hc, consult, pure, Except.pure]
  | setQuota owner limit =>
      simp [run, setQuota_ne_storage (.owner owner) hc, consult, pure, Except.pure]
  | removeDefaultQuota =>
      simp [run, removeQuota_ne_storage .default hc, consult, pure, Except.pure]
  | removeQuota owner =>
      simp [run, removeQuota_ne_storage (.owner owner) hc, consult, pure, Except.pure]

/-! ### The rows that an operation consults -/

/-- One of the rows that the space check consults cannot be read. -/
def SpaceTroubled (db : Database) (owner : String) : Prop :=
  db.UnreadableOwner owner ∨ db.UnreadableLimit (.owner owner) ∨ db.UnreadableLimit .default

/-- One of the rows that the operation consults cannot be read. -/
def Troubled (db : Database) : Operation → Prop
  | .haveSpace owner _ _ | .put owner _ _ => SpaceTroubled db owner
  | .list owner => db.UnreadableOwner owner
  | .get owner name | .delete owner name => db.UnreadableScript owner name
  | .getActive owner | .getActivationDate owner => db.UnreadableActive owner
  | .setActive owner name =>
    if name = "" then db.UnreadableActive owner
    else db.HasScript owner name ∧ (db.UnreadableScript owner name ∨ db.UnreadableActive owner)
  | .rename owner source target =>
    db.UnreadableScript owner source ∨
      db.HasScript owner source ∧ db.UnreadableScript owner target
  | .hasQuota owner | .getQuota owner => db.UnreadableLimit (.owner owner)
  | .hasDefaultQuota | .getDefaultQuota => db.UnreadableLimit .default
  | .setDefaultQuota _ | .removeDefaultQuota | .setQuota _ _ | .removeQuota _ => False

/-- Trouble is a row that cannot be read. -/
lemma Troubled.exists_unreadable (h : op.Troubled db) :
    (∃ r ∈ db.scripts, r.Unreadable) ∨ ∃ r ∈ db.quotas, r.Unreadable := by
  have howner : ∀ {owner}, db.UnreadableOwner owner → ∃ r ∈ db.scripts, r.Unreadable := by
    rintro owner ⟨r, hr, -, hu⟩
    exact ⟨r, hr, hu⟩
  have hscript : ∀ {owner name}, db.UnreadableScript owner name → ∃ r ∈ db.scripts, r.Unreadable := by
    rintro owner name ⟨r, hr, -, -, hu⟩
    exact ⟨r, hr, hu⟩
  have hactive : ∀ {owner}, db.UnreadableActive owner → ∃ r ∈ db.scripts, r.Unreadable := by
    rintro owner ⟨r, hr, -, -, hu⟩
    exact ⟨r, hr, hu⟩
  have hlimit : ∀ {key}, db.UnreadableLimit key → ∃ r ∈ db.quotas, r.Unreadable := by
    rintro key ⟨r, hr, -, hu⟩
    exact ⟨r, hr, hu⟩
  have hspace : ∀ {owner}, SpaceTroubled db owner →
      (∃ r ∈ db.scripts, r.Unreadable) ∨ ∃ r ∈ db.quotas, r.Unreadable := by
    rintro owner (hu | hu | hu)
    · exact .inl (howner hu)
    · exact .inr (hlimit hu)
    · exact .inr (hlimit hu)
  cases op with
  | haveSpace owner name size => exact hspace h
  | put owner name content => exact hspace h
  | list owner => exact .inl (howner h)
  | get owner name => exact .inl (hscript h)
  | delete owner name => exact .inl (hscript h)
  | getActive owner => exact .inl (hactive h)
  | getActivationDate owner => exact .inl (hactive h)
  | setActive owner name =>
      simp only [Troubled] at h
      split_ifs at h
      · exact .inl (hactive h)
      · exact .inl (h.2.elim hscript hactive)
  | rename owner source target => exact .inl (h.elim hscript fun h => hscript h.2)
  | hasDefaultQuota => exact .inr (hlimit h)
  | getDefaultQuota => exact .inr (hlimit h)
  | hasQuota owner => exact .inr (hlimit h)
  | getQuota owner => exact .inr (hlimit h)
  | setDefaultQuota limit => exact h.elim
  | removeDefaultQuota => exact h.elim
  | setQuota owner limit => exact h.elim
  | removeQuota owner => exact h.elim

/-- A lookup of the space check fails exactly if one of its rows cannot be read. -/
lemma consultSpace_fails_iff (hdb : db.Schema) {owner : String} :
    (∃ f, consultSpace db owner = .error f) ↔ SpaceTroubled db owner := by
  unfold SpaceTroubled Database.UnreadableOwner Database.UnreadableLimit consultSpace
  rw [← Database.findAll_fails_iff, ← Database.findLimit_fails_iff hdb,
    ← Database.findLimit_fails_iff hdb]
  cases db.findAll owner with
  | error g => simp [bind, Except.bind]
  | ok scripts => cases db.findLimit (.owner owner) <;> simp [bind, Except.bind, discard_error_iff]

/-- After a script is looked up and found, a second lookup is made: one of them fails exactly if the
row of the script cannot be read, or there is one and the second lookup fails. -/
lemma guarded_fails_iff {α : Type} (hdb : db.Schema) {owner name : String}
    {x : Except StorageFault α} :
    (∃ f, (do
      let found ← db.findScript owner name
      if found.isSome then discard x else pure ()) = .error f) ↔
      db.UnreadableScript owner name ∨ db.HasScript owner name ∧ ∃ f, x = .error f := by
  rw [Database.UnreadableScript, ← Database.findScript_fails_iff hdb]
  cases hfind : db.findScript owner name with
  | error g => simp [bind, Except.bind]
  | ok found =>
      rw [← Database.isSome_iff_hasScript hdb hfind]
      cases found <;> simp [bind, Except.bind, pure, Except.pure, discard_error_iff]

/-- A lookup of an operation fails exactly if one of the rows it consults cannot be read. -/
theorem consult_fails_iff (hdb : db.Schema) : (∃ f, consult db op = .error f) ↔ op.Troubled db := by
  cases op with
  | haveSpace owner name size => exact consultSpace_fails_iff hdb
  | put owner name content => exact consultSpace_fails_iff hdb
  | list owner =>
      simp only [consult, discard_error_iff]
      exact Database.findAll_fails_iff
  | get owner name =>
      simp only [consult, discard_error_iff]
      exact Database.findScript_fails_iff hdb
  | delete owner name =>
      simp only [consult, discard_error_iff]
      exact Database.findScript_fails_iff hdb
  | getActive owner =>
      simp only [consult, discard_error_iff]
      exact Database.findActive_fails_iff hdb
  | getActivationDate owner =>
      simp only [consult, discard_error_iff]
      exact Database.findActive_fails_iff hdb
  | setActive owner name =>
      simp only [consult, Troubled]
      split_ifs
      · simp only [discard_error_iff]
        exact Database.findActive_fails_iff hdb
      · rw [guarded_fails_iff hdb, Database.findActive_fails_iff hdb, ← Database.UnreadableActive]
        constructor
        · rintro (hu | ⟨hs, hu⟩)
          · exact ⟨hu.hasScript, .inl hu⟩
          · exact ⟨hs, .inr hu⟩
        · rintro ⟨hs, hu | hu⟩
          · exact .inl hu
          · exact .inr ⟨hs, hu⟩
  | rename owner source target =>
      simp only [consult, Troubled]
      rw [guarded_fails_iff hdb, Database.findScript_fails_iff hdb, ← Database.UnreadableScript]
  | hasDefaultQuota =>
      simp only [consult, discard_error_iff]
      exact Database.findLimit_fails_iff hdb
  | getDefaultQuota =>
      simp only [consult, discard_error_iff]
      exact Database.findLimit_fails_iff hdb
  | hasQuota owner =>
      simp only [consult, discard_error_iff]
      exact Database.findLimit_fails_iff hdb
  | getQuota owner =>
      simp only [consult, discard_error_iff]
      exact Database.findLimit_fails_iff hdb
  | setDefaultQuota limit => simp [consult, Troubled, pure, Except.pure]
  | removeDefaultQuota => simp [consult, Troubled, pure, Except.pure]
  | setQuota owner limit => simp [consult, Troubled, pure, Except.pure]
  | removeQuota owner => simp [consult, Troubled, pure, Except.pure]

/-! ### Which trouble it is -/

lemma ofReading_of_consultSpace {owner : String} (h : consultSpace db owner = .error f) :
    f.OfReading := by
  rcases bind_error_iff.mp h with hall | ⟨-, -, h⟩
  · exact Database.ofReading_of_findAll (discard_error_iff.mp hall)
  · rcases bind_error_iff.mp h with hown | ⟨-, -, h⟩
    · exact Database.ofReading_of_findLimit (discard_error_iff.mp hown)
    · exact Database.ofReading_of_findLimit (discard_error_iff.mp h)

lemma ofReading_of_guarded {α : Type} {owner name : String} {x : Except StorageFault α}
    (h : (do
      let found ← db.findScript owner name
      if found.isSome then discard x else pure ()) = .error f)
    (hx : x = .error f → f.OfReading) : f.OfReading := by
  rcases bind_error_iff.mp h with hfind | ⟨found, -, h⟩
  · exact Database.ofReading_of_findScript hfind
  · split_ifs at h
    · exact hx (discard_error_iff.mp h)
    · cases h

/-- The faults of the lookups are those of rows that cannot be read. -/
lemma ofReading_of_consult (h : consult db op = .error f) : f.OfReading := by
  cases op with
  | haveSpace owner name size => exact ofReading_of_consultSpace h
  | put owner name content => exact ofReading_of_consultSpace h
  | list owner => exact Database.ofReading_of_findAll (discard_error_iff.mp h)
  | get owner name => exact Database.ofReading_of_findScript (discard_error_iff.mp h)
  | delete owner name => exact Database.ofReading_of_findScript (discard_error_iff.mp h)
  | getActive owner => exact Database.ofReading_of_findActive (discard_error_iff.mp h)
  | getActivationDate owner => exact Database.ofReading_of_findActive (discard_error_iff.mp h)
  | setActive owner name =>
      simp only [consult] at h
      split_ifs at h
      · exact Database.ofReading_of_findActive (discard_error_iff.mp h)
      · exact ofReading_of_guarded h fun hx => Database.ofReading_of_findActive hx
  | rename owner source target =>
      exact ofReading_of_guarded h fun hx => Database.ofReading_of_findScript hx
  | hasDefaultQuota => exact Database.ofReading_of_findLimit (discard_error_iff.mp h)
  | getDefaultQuota => exact Database.ofReading_of_findLimit (discard_error_iff.mp h)
  | hasQuota owner => exact Database.ofReading_of_findLimit (discard_error_iff.mp h)
  | getQuota owner => exact Database.ofReading_of_findLimit (discard_error_iff.mp h)
  | setDefaultQuota limit => cases h
  | removeDefaultQuota => cases h
  | setQuota owner limit => cases h
  | removeQuota owner => cases h

/-- An operation answers with trouble of the database only if a lookup of it fails. -/
lemma consult_of_storage (hdb : db.Schema) (hfit : op.Fits) {now : Instant}
    (h : (op.run now db).result = .error (.storage f)) : consult db op = .error f := by
  cases hc : op.checks with
  | error e =>
      rw [run_of_checks_error hc, Except.error.injEq] at h
      exact absurd hc (h ▸ checks_ne_storage)
  | ok u => exact (storage_run_iff hdb hfit hc now).mp h

/-- No operation answers with a broken rule of the tables, and one that passes its name checks
answers with trouble of the database exactly if one of the rows it consults cannot be read. -/
theorem storage_iff_troubled (hdb : db.Schema) (hfit : op.Fits) (now : Instant) :
    (∀ f, (op.run now db).result = .error (.storage f) → f.OfReading) ∧
      (op.checks = .ok () →
        ((∃ f, (op.run now db).result = .error (.storage f)) ↔ op.Troubled db)) := by
  constructor
  · intro f hf
    exact ofReading_of_consult (consult_of_storage hdb hfit hf)
  · intro hc
    simp only [storage_run_iff hdb hfit hc]
    exact consult_fails_iff hdb

/-- Beside a script of negative size no other one of the owner can be stored. -/
theorem storage_iff_troubled_negative_size :
    let op : Operation := .put "ann" "night" "stop;"
    let db : Database := ⟨[⟨"ann", "day", "keep;", -1, 0, none⟩], []⟩
    db.Schema ∧ op.Fits ∧ op.checks = .ok () ∧ op.Troubled db ∧
      ∃ f, (op.run .epoch db).result = .error (.storage f) := by
  intro op db
  have hdb : db.Schema := by decide +kernel
  have hsize : "stop;".utf8ByteSize < columnBound := by decide +kernel
  have hfit : op.Fits := hsize
  have hc : op.checks = .ok () := by decide +kernel
  have htroubled : op.Troubled db :=
    .inl ⟨_, List.mem_singleton_self _, rfl, .inl (by decide)⟩
  exact ⟨hdb, hfit, hc, htroubled, ((storage_iff_troubled hdb hfit .epoch).2 hc).mpr htroubled⟩

end Operation

end FilterStore
