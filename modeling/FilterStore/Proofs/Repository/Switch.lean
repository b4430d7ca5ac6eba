import FilterStore.Proofs.Repository.Lasting
import FilterStore.Proofs.Store.Ownership

/-!
Making a script the only active one switches one pair of rows.

* **Rows.** `ScriptRow.SwitchedOn` and `ScriptRow.SwitchedOff` say what becomes of a row: mark and
  date change, and content and size stay, whatever size that is.
* **The writes.** `switchOver` writes one or two rows, and the tables keep their rules after each
  write (`oneMarked_midway`). The rows are taken from copies that were read before the first
  write, and hold what the rows held (`switchedOn_stored`, `switchedOff_stored`).
* **The switch.** `setActive_switches` puts this together for a script and for the empty name, and
  says that a call that fails changes nothing.
-/

namespace FilterStore

/-! ### Rows -/

namespace ScriptRow

/-- The row with the mark of the active script and a date that reads as the given time. -/
structure SwitchedOn (before after : ScriptRow) (now : Instant) : Prop where
  /-- It is the row of the same script. -/
  key : Keyed.key after = Keyed.key before
  /-- It bears the mark. -/
  active : after.active = 1
  /-- Its date reads as the time. -/
  date : after.readDate = .ok (some now)
  /-- The content is the same. -/
  content : after.content = before.content
  /-- The size is the same. -/
  size : after.size = before.size

/-- The row without mark and date. -/
structure SwitchedOff (before after : ScriptRow) : Prop where
  /-- It is the row of the same script. -/
  key : Keyed.key after = Keyed.key before
  /-- Its mark is 0. -/
  active : after.active = 0
  /-- It has no date. -/
  date : after.activatedAt = none
  /-- The content is the same. -/
  content : after.content = before.content
  /-- The size is the same. -/
  size : after.size = before.size

variable {r : ScriptRow} {s : Script} {now : Instant}

/-- The script that a row shows, activated and stored. -/
lemma Shows.switchedOn (h : r.Shows s) (hnow : now.HasPlainYear) :
    r.SwitchedOn (s.activate now).stored now where
  key := by rw [key_eq, key_eq, Script.stored_owner, Script.stored_name, ← h.owner, ← h.name]; rfl
  active := rfl
  date := by
    have hread : Timestamp.read (Timestamp.write now) = .ok now := hnow.survives
    simp only [readDate, Script.stored, Script.activate, Option.map_some, hread]
  content := h.content
  size := h.size.symm

/-- The script that a row shows, switched off and stored. -/
lemma Shows.switchedOff (h : r.Shows s) : r.SwitchedOff s.deactivate.stored where
  key := by rw [key_eq, key_eq, Script.stored_owner, Script.stored_name, ← h.owner, ← h.name]; rfl
  active := rfl
  date := rfl
  content := h.content
  size := h.size.symm

end ScriptRow

/-! ### The writes -/

namespace Database

variable {db : Database} {owner name : String}

/-- Each owner has at most one row with the mark of the active script. -/
def OneMarked (db : Database) : Prop :=
  ∀ owner, (db.scripts.filter fun r => r.owner = owner ∧ r.Marked).length ≤ 1

/-- What is left when the script of a row becomes the active one of its owner: it is on, the script
of another name that was active is off, and nothing else is different. -/
structure Switched (db : Database) (owner : String) (target : ScriptRow) (now : Instant)
    (after : Database) : Prop where
  /-- The script is on. -/
  on : ∃ r ∈ after.scripts, target.SwitchedOn r now
  /-- The script of another name that was active is off. -/
  off : ∀ p ∈ db.activeRow? owner, p.name ≠ target.name → ∃ r ∈ after.scripts, p.SwitchedOff r
  /-- Nothing else is different. -/
  others : SameBut
    (fun o n => o = owner ∧ (n = target.name ∨ ∃ p ∈ db.activeRow? owner, p.name = n)) db after

/-- What is left when no script is to be active: the one that was is off, and nothing else is
different. -/
structure SwitchedOff (db : Database) (owner : String) (after : Database) : Prop where
  /-- The script that was active is off. -/
  off : ∀ p ∈ db.activeRow? owner, ∃ r ∈ after.scripts, p.SwitchedOff r
  /-- Nothing else is different. -/
  others : SameBut (fun o n => o = owner ∧ ∃ p ∈ db.activeRow? owner, p.name = n) db after

/-- What is taken in turn is taken up to any point. -/
lemma TakesInTurn.initial {done scripts : List Script} (h : db.TakesInTurn scripts)
    (hdone : done <+: scripts) : db.TakesInTurn done := by
  induction done generalizing db scripts with
  | nil => trivial
  | cons s done ih =>
      obtain ⟨rest, rfl⟩ := hdone
      exact ⟨h.1, ih h.2 (List.prefix_append done rest)⟩

/-- A row that can be read is found as the script that it shows. -/
lemma exists_findScript {r : ScriptRow} (hrow : db.scriptRow? owner name = some r)
    (hread : r.Readable) : ∃ s, db.findScript owner name = .ok (some s) ∧ r.Shows s := by
  obtain ⟨s, hs⟩ := hread
  exact ⟨s, optionMapM_eq_some_iff.mpr ⟨r, hrow, hs⟩, ScriptRow.script_eq_ok_iff.mp hs⟩

/-- If the marked row can be read, it is found as the active script that it shows. -/
lemma exists_findActive (hread : ∀ r ∈ db.activeRow? owner, r.Readable) :
    (db.activeRow? owner = none ∧ db.findActive owner = .ok none) ∨
      ∃ r s, db.activeRow? owner = some r ∧ db.findActive owner = .ok (some s) ∧ r.Shows s := by
  cases hrow : db.activeRow? owner with
  | none => exact .inl ⟨rfl, optionMapM_eq_none_iff.mpr hrow⟩
  | some r =>
      obtain ⟨s, hs⟩ := hread r hrow
      exact .inr ⟨r, s, rfl, optionMapM_eq_some_iff.mpr ⟨r, hrow, hs⟩,
        ScriptRow.script_eq_ok_iff.mp hs⟩

end Database

namespace Repository

open Database

variable {db : Database} {owner name : String} {now : Instant} {target : Script}
  {current : Option Script}

/-- After each of the writes no owner has two marked rows. -/
lemma oneMarked_midway (hdb : db.Schema) (htarget : db.findScript owner name = .ok (some target))
    (hcurrent : db.findActive owner = .ok current) {done : List Script}
    (hdone : done <+: switchOver now target current) :
    ∃ mid, done.forM Action.upsertScript db = .ok () mid ∧ mid.OneMarked := by
  have hturn := (takesInTurn_switchOver hdb now htarget hcurrent).initial hdone
  exact ⟨_, forM_upsertScript_run hturn, (hdb.storeAll hturn).length_marked_le_one⟩

/-- The last write leaves the row of the script. -/
lemma stored_activate_mem (hdb : db.Schema) (htarget : db.findScript owner name = .ok (some target))
    (hcurrent : db.findActive owner = .ok current) :
    (target.activate now).stored ∈ (db.storeAll (switchOver now target current)).scripts := by
  have hturn := takesInTurn_switchOver hdb now htarget hcurrent
  cases current with
  | none => exact (mem_store hdb).mpr (.inl rfl)
  | some other =>
      by_cases hname : other.name = target.name
      · rw [switchOver_of_eq hname]
        exact (mem_store hdb).mpr (.inl rfl)
      · rw [switchOver_of_ne hname] at hturn ⊢
        exact (mem_store (hdb.store hturn.1)).mpr (.inl rfl)

/-- The first of two writes leaves the row of the script that was active, and the second one keeps
it. -/
lemma stored_deactivate_mem {other : Script} (hdb : db.Schema)
    (htarget : db.findScript owner name = .ok (some target))
    (hcurrent : db.findActive owner = .ok (some other)) (hname : other.name ≠ target.name) :
    other.deactivate.stored ∈ (db.storeAll (switchOver now target (some other))).scripts := by
  have hturn := takesInTurn_switchOver hdb now htarget hcurrent
  rw [switchOver_of_ne hname] at hturn ⊢
  exact (mem_store (hdb.store hturn.1)).mpr
    (.inr ⟨(mem_store hdb).mpr (.inl rfl), fun hkey => hname hkey.2⟩)

/-- The writes touch the script and the one that was active, and nothing else. -/
lemma sameBut_storeAll_switchOver (hdb : db.Schema)
    (htarget : db.findScript owner name = .ok (some target))
    (hcurrent : db.findActive owner = .ok current) {touched : String → String → Prop}
    (hname : touched target.owner target.name)
    (hother : ∀ other ∈ current, touched other.owner other.name) :
    SameBut touched db (db.storeAll (switchOver now target current)) := by
  have hturn := takesInTurn_switchOver hdb now htarget hcurrent
  cases current with
  | none => exact (SameBut.refl db).store hdb hname
  | some other =>
      by_cases hne : other.name = target.name
      · rw [switchOver_of_eq hne]
        exact (SameBut.refl db).store hdb hname
      · rw [switchOver_of_ne hne] at hturn ⊢
        have hfirst : SameBut touched db (db.store other.deactivate) :=
          (SameBut.refl db).store hdb (hother other rfl)
        exact hfirst.store (hdb.store hturn.1) hname

/-! ### The switch -/

/-- Activating a script that can be read succeeds, and leaves what the writes leave. -/
lemma setActive_of_found (hdb : db.Schema) (ho : Name.Valid .owner owner) (hname : name ≠ "")
    (htarget : db.findScript owner name = .ok (some target))
    (hcurrent : db.findActive owner = .ok current) :
    setActive now owner name db
      = ⟨.ok (), [.activated owner name], db.storeAll (switchOver now target current)⟩ := by
  rw [setActive_eq (Name.require_eq_ok_iff.mpr ho), if_neg hname, activate_eq hdb, htarget]
  simp only [hcurrent]

/-- Switching off stores the active script without mark and date, if there is one. -/
lemma setActive_noScript (hdb : db.Schema) (ho : Name.Valid .owner owner)
    (hcurrent : db.findActive owner = .ok current) :
    (setActive now owner "" db).result = .ok () ∧
      (setActive now owner "" db).database = db.storeAll (current.toList.map Script.deactivate) := by
  rw [setActive_eq (Name.require_eq_ok_iff.mpr ho), if_pos rfl, deactivate_eq hdb, hcurrent]
  cases current <;> exact ⟨rfl, rfl⟩

/-- A call that fails changes nothing. -/
lemma database_setActive_of_error (hdb : db.Schema) {e : Failure}
    (h : (setActive now owner name db).result = .error e) :
    (setActive now owner name db).database = db := by
  have hrun : ((Operation.setActive owner name).run now db).result = .error e :=
    Outcome.map_error_iff.mpr h
  exact Operation.database_of_error hdb hrun

/-- The writes leave what becomes of the rows that were read. -/
lemma switched_storeAll (hdb : db.Schema) {row : ScriptRow}
    (hrow : db.scriptRow? owner name = some row) (hread : row.Readable)
    (hactive : ∀ r ∈ db.activeRow? owner, r.Readable) (hnow : now.HasPlainYear) :
    ∃ target current, db.findScript owner name = .ok (some target) ∧
      db.findActive owner = .ok current ∧
      db.Switched owner row now (db.storeAll (switchOver now target current)) := by
  obtain ⟨target, htarget, hshows⟩ := exists_findScript hrow hread
  obtain ⟨-, howner, -⟩ := (scriptRow?_eq_some_iff hdb).mp hrow
  have hon := hshows.switchedOn hnow
  rcases exists_findActive hactive with ⟨hnone, hcurrent⟩ | ⟨p, other, hp, hcurrent, hother⟩
  · refine ⟨target, none, htarget, hcurrent, ⟨_, stored_activate_mem hdb htarget hcurrent, hon⟩,
      ?_, sameBut_storeAll_switchOver hdb htarget hcurrent ?_ ?_⟩
    · rw [hnone]
      exact nofun
    · exact ⟨hshows.owner.trans howner, .inl hshows.name⟩
    · intro other hother
      cases hother
  · refine ⟨target, some other, htarget, hcurrent,
      ⟨_, stored_activate_mem hdb htarget hcurrent, hon⟩, ?_,
      sameBut_storeAll_switchOver hdb htarget hcurrent ?_ ?_⟩
    · rintro q hq hname
      obtain rfl : p = q := Option.some.inj (hp.symm.trans hq)
      rw [← hother.name, ← hshows.name] at hname
      exact ⟨_, stored_deactivate_mem hdb htarget hcurrent hname, hother.switchedOff⟩
    · exact ⟨hshows.owner.trans howner, .inl hshows.name⟩
    · rintro q hq
      obtain rfl : other = q := Option.some.inj hq
      obtain ⟨-, hpo, -⟩ := (activeRow?_eq_some_iff hdb).mp hp
      exact ⟨hother.owner.trans hpo, .inr ⟨p, hp, hother.name.symm⟩⟩

/-- Storing the active script without mark and date leaves what becomes of its row. -/
lemma switchedOff_storeAll (hdb : db.Schema) (hactive : ∀ r ∈ db.activeRow? owner, r.Readable) :
    ∃ current, db.findActive owner = .ok current ∧
      db.SwitchedOff owner (db.storeAll (current.toList.map Script.deactivate)) := by
  rcases exists_findActive hactive with ⟨hnone, hcurrent⟩ | ⟨p, other, hp, hcurrent, hother⟩
  · refine ⟨none, hcurrent, ?_, SameBut.refl db⟩
    rw [hnone]
    exact nofun
  · refine ⟨some other, hcurrent, ?_, (SameBut.refl db).store hdb ?_⟩
    · rintro q hq
      obtain rfl : p = q := Option.some.inj (hp.symm.trans hq)
      exact ⟨_, (mem_store hdb).mpr (.inl rfl), hother.switchedOff⟩
    · obtain ⟨-, hpo, -⟩ := (activeRow?_eq_some_iff hdb).mp hp
      exact ⟨hother.owner.trans hpo, p, hp, hother.name.symm⟩

/-- **Activation switches one pair of rows.** For an owner whose marked row can be read, a script
that is there and can be read becomes the active one: the call succeeds, after each of its writes
every owner has at most one marked row, and at the end the script is on, the one that was on is off,
and nothing else is different. The empty name switches off the one that is on. A call that fails
changes nothing. -/
theorem setActive_switches (hdb : db.Schema) (now : Instant) (owner : String) :
    (Name.Valid .owner owner → (∀ r ∈ db.activeRow? owner, r.Readable) →
      (now.HasPlainYear → ∀ name row, name ≠ "" → db.scriptRow? owner name = some row →
        row.Readable →
        (setActive now owner name db).result = .ok () ∧
        (∃ target current, db.findScript owner name = .ok (some target) ∧
          db.findActive owner = .ok current ∧
          (switchOver now target current).forM Action.upsertScript db
            = .ok () (setActive now owner name db).database ∧
          ∀ done, done <+: switchOver now target current →
            ∃ mid, done.forM Action.upsertScript db = .ok () mid ∧ mid.OneMarked) ∧
        db.Switched owner row now (setActive now owner name db).database) ∧
      (setActive now owner "" db).result = .ok () ∧
        db.SwitchedOff owner (setActive now owner "" db).database) ∧
    ∀ name e, (setActive now owner name db).result = .error e →
      (setActive now owner name db).database = db := by
  refine ⟨fun ho hactive => ⟨fun hnow name row hname hrow hread => ?_, ?_⟩,
    fun name e h => database_setActive_of_error hdb h⟩
  · obtain ⟨target, current, htarget, hcurrent, hswitched⟩ :=
      switched_storeAll hdb hrow hread hactive hnow
    rw [setActive_of_found hdb ho hname htarget hcurrent]
    refine ⟨rfl, ⟨target, current, htarget, hcurrent, ?_, fun done hdone => ?_⟩, hswitched⟩
    · exact forM_upsertScript_run (takesInTurn_switchOver hdb now htarget hcurrent)
    · exact oneMarked_midway hdb htarget hcurrent hdone
  · obtain ⟨current, hcurrent, hoff⟩ := switchedOff_storeAll hdb hactive
    obtain ⟨hresult, hleft⟩ := setActive_noScript hdb ho hcurrent
    rw [hleft]
    exact ⟨hresult, hoff⟩

/-- A row of an owner without a name can be in the table, but no call of such an owner reaches it. -/
theorem not_setActive_of_nameless_owner :
    let db : Database := ⟨[⟨"", "day", "keep;", 5, 0, none⟩], []⟩
    db.Schema ∧ (∃ row, db.scriptRow? "" "day" = some row ∧ row.Readable) ∧
      db.activeRow? "" = none ∧ Instant.epoch.HasPlainYear ∧
      (setActive .epoch "" "day" db).result ≠ .ok () := by
  intro db
  have hread : (⟨"", "day", "keep;", 5, 0, none⟩ : ScriptRow).Readable := ⟨_, rfl⟩
  have hdb : db.Schema := by decide +kernel
  exact ⟨hdb, ⟨_, rfl, hread⟩, rfl, Instant.hasPlainYear_epoch, by decide +kernel⟩

/-- The script that was active has a size that is not the length of its content, and the other one
bears another mark than 0 and 1. -/
theorem setActive_switches_odd_rows :
    let day : ScriptRow := ⟨"ann", "day", "keep;", 900, 1, some "2024-05-01T10:00:00Z"⟩
    let night : ScriptRow := ⟨"ann", "night", "stop;", 0, 2, none⟩
    let db : Database := ⟨[day, night], []⟩
    (setActive .epoch "ann" "night" db).result = .ok () ∧
      db.Switched "ann" night .epoch (setActive .epoch "ann" "night" db).database ∧
      db.SwitchedOff "ann" (setActive .epoch "ann" "" db).database := by
  intro day night db
  have hdb : db.Schema := by decide +kernel
  have ho : Name.Valid .owner "ann" := Name.check_eq_ok_iff.mp (by decide +kernel)
  have hday : day.Readable := ⟨_, rfl⟩
  have hactive : ∀ r ∈ db.activeRow? "ann", r.Readable := by
    rintro r hr
    have hrow : db.activeRow? "ann" = some day := by decide +kernel
    rw [← Option.some.inj (hrow.symm.trans hr)]
    exact hday
  have hnight : night.Readable := ⟨_, rfl⟩
  have hrow : db.scriptRow? "ann" "night" = some night := by decide +kernel
  obtain ⟨hon, -, hoff⟩ := (setActive_switches hdb .epoch "ann").1 ho hactive
  obtain ⟨hresult, -, hswitched⟩ := hon Instant.hasPlainYear_epoch "night" night (by decide) hrow hnight
  exact ⟨hresult, hswitched, hoff⟩

end Repository

end FilterStore
