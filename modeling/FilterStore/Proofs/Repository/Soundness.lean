import FilterStore.Proofs.Repository.Readability

/-!
What clients of the repository leave in the database.

* **Exact sizes.** Operations write scripts whose sizes are the lengths of their contents
  (`Made.exact`).
* **Sound rows.** `ScriptRow.Sound` and `QuotaRow.Sound` say what else holds of the rows that the
  library writes: names are valid, marks are 0 or 1 and agree with the dates, and a date is a text
  that is read and written back identically.
* **Every session.** Sessions that use the repository only lead from the empty database to sound
  ones (`sound_runSession`), and in a sound database no operation answers with trouble of the
  database (`not_storage_of_sound`).
-/

namespace FilterStore

/-! ### Sound rows -/

/-- A row of the table of scripts as the library writes it. -/
structure ScriptRow.Sound (r : ScriptRow) : Prop where
  /-- The owner is a name. -/
  owner : Name.check .owner r.owner = .ok ()
  /-- The name is one. -/
  name : Name.check .script r.name = .ok ()
  /-- The size is the length of the content. -/
  exact : r.Exact
  /-- The mark is 0 or 1. -/
  mark : r.active = 0 ∨ r.active = 1
  /-- It is 1 exactly if there is a date. -/
  marked : r.active = 1 ↔ r.activatedAt.isSome = true
  /-- The date is read and written back identically. -/
  date : ∀ text ∈ r.activatedAt, ∃ t, Timestamp.read text = .ok t ∧ Timestamp.write t = text

/-- A row of the table of quotas as the library writes it. -/
structure QuotaRow.Sound (r : QuotaRow) : Prop where
  /-- The key is the default one or the name of an owner. -/
  key : r.key = "" ∨ Name.check .owner r.key = .ok ()
  /-- The limit is a number of bytes, if there is one. -/
  limit : ∀ i ∈ r.limit, 0 ≤ i.toInt ∧ i.toInt < columnBound

/-- A script that the library may store. -/
structure Script.Sound (s : Script) : Prop where
  /-- The owner is a name. -/
  owner : Name.check .owner s.owner = .ok ()
  /-- The name is one. -/
  name : Name.check .script s.name = .ok ()
  /-- The size is the length of the content. -/
  exact : s.Exact
  /-- Mark and date agree. -/
  coherent : s.Coherent
  /-- The date is read back. -/
  survives : ∀ t ∈ s.activatedAt, t.Survives

/-- The row of a sound script is sound. -/
lemma Script.Sound.stored {s : Script} (h : s.Sound) : s.stored.Sound where
  owner := h.owner
  name := h.name
  exact := h.exact.stored
  mark := by
    rw [Script.stored]
    cases s.active with
    | true => exact .inr rfl
    | false => exact .inl rfl
  marked := s.stored_coherent.mpr h.coherent
  date text htext := by
    obtain ⟨t, ht, rfl⟩ := Option.map_eq_some_iff.mp htext
    exact ⟨t, h.survives t ht, rfl⟩

/-- A sound row is read as a sound script. -/
lemma ScriptRow.Shows.sound {r : ScriptRow} {s : Script} (hs : r.Shows s) (h : r.Sound) :
    s.Sound where
  owner := hs.owner ▸ h.owner
  name := hs.name ▸ h.name
  exact := hs.exact h.exact
  coherent := hs.coherent
  survives t ht := by
    have hdate := hs.date
    rw [readDate] at hdate
    cases htext : r.activatedAt with
    | none =>
        rw [htext, Except.ok.injEq] at hdate
        rw [← hdate] at ht
        cases ht
    | some text =>
        obtain ⟨u, hu, hwrite⟩ := h.date text htext
        simp only [htext, hu, Except.ok.injEq] at hdate
        rw [← hdate] at ht
        cases ht
        rw [Instant.Survives, hwrite, hu]

/-- The row of a limit that fits its column is sound. -/
lemma Limit.Storable.sound {limit : Limit} (h : limit.Storable) {key : QuotaKey}
    (hk : Repository.checkKey key = .ok ()) : (limit.stored key).Sound where
  key := by
    cases key with
    | default => exact .inl rfl
    | owner name =>
        rw [Repository.checkKey, Repository.checkOwner, Name.require_eq_ok_iff,
          ← Name.check_eq_ok_iff] at hk
        exact .inr hk
  limit i hi := by
    obtain ⟨count, hcount, rfl⟩ := Option.map_eq_some_iff.mp hi
    have hlt := h count hcount
    rw [toInt_toInt64 hlt]
    omega

lemma ScriptRow.Sound.not_unreadable {r : ScriptRow} (h : r.Sound) : ¬ r.Unreadable := by
  rintro (hsize | ⟨text, fault, htext, hfault⟩)
  · have hexact : r.size.toInt = r.content.utf8ByteSize := h.exact
    rw [Int64.lt_iff_toInt_lt, hexact, Int64.toInt_zero] at hsize
    omega
  · obtain ⟨t, ht, -⟩ := h.date text htext
    rw [ht] at hfault
    cases hfault

lemma QuotaRow.Sound.not_unreadable {r : QuotaRow} (h : r.Sound) : ¬ r.Unreadable := by
  rintro ⟨i, hi, hneg⟩
  have hpos := (h.limit i hi).1
  rw [Int64.lt_iff_toInt_lt, Int64.toInt_zero] at hneg
  omega

/-! ### Sound databases -/

/-- A database as the library leaves it. -/
structure Database.Sound (db : Database) : Prop where
  /-- The rules of the tables hold. -/
  schema : db.Schema
  /-- The scripts are sound. -/
  scripts : ∀ r ∈ db.scripts, r.Sound
  /-- The quotas are sound. -/
  quotas : ∀ r ∈ db.quotas, r.Sound

lemma Database.sound_empty : Database.empty.Sound where
  schema := Database.schema_empty
  scripts _ h := nomatch h
  quotas _ h := nomatch h

namespace Operation

open Repository

variable {now : Instant} {op : Operation} {db : Database}

/-- The scripts that an operation writes have exact sizes if those in the database do. -/
lemma Made.exact (hdb : db.Schema) (hrows : ∀ r ∈ db.scripts, r.Exact) (hfit : op.Fits) {s : Script}
    (h : Made now db op s) : s.Exact := by
  cases h with
  | @put owner name content previous names found =>
      have hsize : (contentSize content).toNat = content.utf8ByteSize :=
        toNat_contentSize hfit
      have hstorable : (contentSize content).toNat < columnBound := hsize.trans_lt hfit
      cases previous with
      | none => exact ⟨hstorable, hsize⟩
      | some p => exact ⟨hstorable, hsize⟩
  | off found =>
      obtain ⟨r, hr, -, -, hrs⟩ := Database.shows_of_findActive hdb found
      have hexact := hrs.exact (hrows r hr)
      exact ⟨hexact.storable, hexact.size⟩
  | on found =>
      obtain ⟨r, hr, -, -, hrs⟩ := Database.shows_of_findScript hdb found
      have hexact := hrs.exact (hrows r hr)
      exact ⟨hexact.storable, hexact.size⟩
  | renamed names found =>
      obtain ⟨r, hr, -, -, hrs⟩ := Database.shows_of_findScript hdb found
      have hexact := hrs.exact (hrows r hr)
      exact ⟨hexact.storable, hexact.size⟩

lemma checkScript_eq_ok_iff_check {owner name : String} :
    checkScript owner name = .ok () ↔
      Name.check .owner owner = .ok () ∧ Name.check .script name = .ok () := by
  rw [checkScript_eq_ok_iff, checkOwner, Name.require_eq_ok_iff, Name.require_eq_ok_iff,
    Name.check_eq_ok_iff, Name.check_eq_ok_iff]

/-- The scripts that an operation writes are sound if those in the database are. -/
lemma Made.sound (hdb : db.Sound) (hfit : op.Fits) (hnow : now.HasPlainYear) {s : Script}
    (h : Made now db op s) : s.Sound := by
  have hexact := h.exact hdb.schema (fun r hr => (hdb.scripts r hr).exact) hfit
  cases h with
  | @put owner name content previous names found =>
      obtain ⟨howner, hname⟩ := checkScript_eq_ok_iff_check.mp names
      cases previous with
      | none => exact ⟨howner, hname, hexact, Script.coherent_fresh _ _ _, fun _ ht => nomatch ht⟩
      | some p =>
          obtain ⟨r, hr, -, -, hrp⟩ := Database.shows_of_findScript hdb.schema found
          have hp := hrp.sound (hdb.scripts r hr)
          exact ⟨howner, hname, hexact, hp.coherent, hp.survives⟩
  | @off owner name s found =>
      obtain ⟨r, hr, -, -, hrs⟩ := Database.shows_of_findActive hdb.schema found
      have hs := hrs.sound (hdb.scripts r hr)
      exact ⟨hs.owner, hs.name, hexact, s.coherent_deactivate, fun _ ht => nomatch ht⟩
  | @on owner name s found =>
      obtain ⟨r, hr, -, -, hrs⟩ := Database.shows_of_findScript hdb.schema found
      have hs := hrs.sound (hdb.scripts r hr)
      refine ⟨hs.owner, hs.name, hexact, s.coherent_activate now, fun t ht => ?_⟩
      cases ht
      exact hnow.survives
  | renamed names found =>
      obtain ⟨r, hr, -, -, hrs⟩ := Database.shows_of_findScript hdb.schema found
      have hs := hrs.sound (hdb.scripts r hr)
      exact ⟨hs.owner, (checkScript_eq_ok_iff_check.mp names).2, hexact, hs.coherent, hs.survives⟩

/-- The limits that an operation writes make sound rows. -/
lemma MadeLimit.sound {key : QuotaKey} {limit : Limit} (h : MadeLimit op key limit) :
    (limit.stored key).Sound := by
  cases h with
  | default storable => exact storable.sound rfl
  | owner named storable => exact storable.sound named

/-- An operation leaves a sound database sound. -/
theorem sound_run (hdb : db.Sound) (hfit : op.Fits) (hnow : now.HasPlainYear) :
    (op.run now db).database.Sound := by
  rcases database_run hdb.schema hfit now with hsame | ⟨event, writes⟩
  · rw [hsame]
    exact hdb
  · refine ⟨writes.schema hdb.schema hfit, fun r hr => ?_, fun r hr => ?_⟩
    · rcases writes.scripts hdb.schema hr with hr | ⟨s, rfl, hs⟩
      · exact hdb.scripts r hr
      · exact (hs.sound hdb hfit hnow).stored
    · rcases writes.quotas hdb.schema hr with hr | ⟨key, limit, rfl, hl⟩
      · exact hdb.quotas r hr
      · exact hl.sound

/-- In a sound database no operation answers with trouble of the database. -/
theorem not_storage_of_sound (hdb : db.Sound) (hfit : op.Fits) (now : Instant) (f : StorageFault) :
    (op.run now db).result ≠ .error (.storage f) := by
  intro h
  have htroubled := (consult_fails_iff hdb.schema).mp ⟨f, consult_of_storage hdb.schema hfit h⟩
  rcases htroubled.exists_unreadable with ⟨r, hr, hu⟩ | ⟨r, hr, hu⟩
  · exact (hdb.scripts r hr).not_unreadable hu
  · exact (hdb.quotas r hr).not_unreadable hu

end Operation

/-! ### Sessions -/

/-- The requests of clients that leave the tables to the library: operations, setting up and
reopening. -/
def Request.OfLibrary : Request → Prop
  | .operation op => op.Fits
  | .setUp | .reopen _ => True
  | .statement _ | .batch _ _ => False

/-- What every request of a session preserves holds after the session. -/
lemma runSession_preserves {P : Database → Prop} {session : List (Instant × Request)}
    (hstep : ∀ call ∈ session, ∀ db, P db → P (call.2.run call.1 db).database) {db : Database}
    (h : P db) : P (runSession session db).2 := by
  induction session generalizing db with
  | nil => exact h
  | cons call rest ih =>
      exact ih (fun next hnext => hstep next (List.mem_cons_of_mem call hnext))
        (hstep call List.mem_cons_self db h)

/-- A request of the library leaves a sound database sound. -/
lemma Request.sound_run {request : Request} (hlib : request.OfLibrary) {now : Instant}
    (hnow : now.HasPlainYear) {db : Database} (hdb : db.Sound) :
    (request.run now db).database.Sound := by
  cases request with
  | operation op => exact Operation.sound_run hdb hlib hnow
  | setUp => exact hdb
  | reopen path => exact hdb
  | statement step => exact hlib.elim
  | batch steps final => exact hlib.elim

/-- **Sessions of the library**: what clients of the repository reach from the empty database is
sound, keeps owner and name unique and has at most one marked script for each owner; and no
operation answers there with trouble of the database. -/
theorem sound_runSession {session : List (Instant × Request)}
    (hlib : ∀ call ∈ session, call.1.HasPlainYear ∧ call.2.OfLibrary) :
    let db := (runSession session .empty).2
    db.Sound ∧ (db.scripts.map fun r => (r.owner, r.name)).Nodup ∧
      (∀ owner, (db.scripts.filter fun r => r.owner = owner ∧ r.active = 1).length ≤ 1) ∧
      ∀ (op : Operation) (now : Instant), op.Fits →
        ∀ f, (op.run now db).result ≠ .error (.storage f) := by
  have hsound : (runSession session .empty).2.Sound :=
    runSession_preserves
      (fun call hcall _ hdb => Request.sound_run (hlib call hcall).2 (hlib call hcall).1 hdb)
      Database.sound_empty
  exact ⟨hsound, hsound.schema.nodup_keys, hsound.schema.length_marked_le_one,
    fun op now hfit => Operation.not_storage_of_sound hsound hfit now⟩

/-- A script that is stored, activated and, after the database was reopened, renamed. -/
theorem sound_runSession_renamed :
    let session : List (Instant × Request) :=
      [(.epoch, .setUp), (.epoch, .operation (.put "ann" "day" "keep;")),
        (.epoch, .operation (.setActive "ann" "day")), (.epoch, .reopen "mail"),
        (.epoch, .operation (.rename "ann" "day" "night"))]
    let row : ScriptRow := ⟨"ann", "night", "keep;", 5, 1, some "1970-01-01T00:00:00+00:00"⟩
    (runSession session .empty).2 = ⟨[row], []⟩ ∧ Database.Sound ⟨[row], []⟩ := by
  intro session row
  have hsize : "keep;".utf8ByteSize < columnBound := by decide +kernel
  have hlib : ∀ call ∈ session, call.1.HasPlainYear ∧ call.2.OfLibrary := by
    have hnow := Instant.hasPlainYear_epoch
    simp only [session, List.forall_mem_cons]
    exact ⟨⟨hnow, trivial⟩, ⟨hnow, hsize⟩, ⟨hnow, trivial⟩, ⟨hnow, trivial⟩, ⟨hnow, trivial⟩,
      List.forall_mem_nil _⟩
  have hrow : (runSession session .empty).2 = ⟨[row], []⟩ := by decide +kernel
  exact ⟨hrow, hrow ▸ (sound_runSession hlib).1⟩

end FilterStore
