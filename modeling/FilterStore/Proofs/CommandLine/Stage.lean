import FilterStore.Proofs.CommandLine.Execution

/-!
The stages of a database whose data directory is given.

* **Before.** Where nothing is (`Vacant`) the database is made, or it turns out that it can never be
  made (`Vacant.opening`). Then it is `Absent` for good (`Absent.opening`).
* **After.** A database that was closed is `Ready` (`run_closeDatabase`): it is found and opened
  with the tables with which it was closed (`Ready.opening`).
* **Stages.** `Stage` is one of the three, with the tables that are made.
-/

namespace FilterStore.CommandLine

open FileTree Text

section Stages

/-- The place of the database is there. -/
structure Reached (dir : String) (place : Location) (files : FileTree) : Prop where
  /-- The data directory is there. -/
  prepared : files.Prepared dir
  /-- The path of the database leads to its place. -/
  resolved : files.resolve (bytes (settingsIn dir).databasePath) = some place

/-- There is nothing yet in the place of the database. -/
structure Vacant (dir : String) (place : Location) (files : FileTree) : Prop where
  /-- Relative paths start at a place that stands. -/
  stands : files.Stands files.directory
  /-- The place is that of the database. -/
  place_eq : files.databasePlace dir = place
  /-- Nothing is there. -/
  vacant : files.lookup? place = none

/-- There are no tables, and none can be made. -/
inductive Absent (dir : String) (place : Location) (files : FileTree) : Prop
  /-- The data directory cannot be made. -/
  | refused {fault : FileFault} (h : files.makeDirectories dir = (.error fault, files))
    (hnone : files.tablesAt place = none)
  /-- The path of the database leads nowhere. -/
  | unreached (prepared : files.Prepared dir)
    (h : files.resolve (bytes (settingsIn dir).databasePath) = none)
    (hnone : files.tablesAt place = none)
  /-- The database cannot be opened. -/
  | obstructed (reached : Reached dir place files) (h : Obstructed place files)

/-- The database is kept, with tables. -/
structure Ready (dir : String) (place : Location) (db : Database) (files : FileTree) : Prop where
  /-- Its place is there. -/
  reached : Reached dir place files
  /-- It is kept. -/
  kept : Kept place db files
  /-- The tables keep their schema. -/
  schema : db.Schema

variable {dir : String} {place : Location} {files after : FileTree} {db : Database}

lemma Reached.keeps (h : Reached dir place files) (hkeeps : files.Keeps after) :
    Reached dir place after where
  prepared := h.prepared.keeps hkeeps
  resolved :=
    (FileTree.Prepared.resolve_keeps (s := settingsIn dir) h.prepared hkeeps).trans h.resolved

lemma Reached.place_eq (h : Reached dir place files) : place = files.databasePlace dir :=
  FileTree.Prepared.place_of_resolve (s := settingsIn dir) h.prepared h.resolved

lemma tablesAt_of_nothing
    (h : files.lookup? place = none ∨ files.lookup? place = some .directory) :
    files.tablesAt place = none := by
  rcases h with h | h <;>
    · rw [tablesAt, h]
      rfl

lemma isMemory_databasePath (s : Settings) : Locator.isMemory (bytes s.databasePath) = false := by
  obtain ⟨xs, hxs, -⟩ := s.bytes_databasePath
  have hlast : (bytes s.databasePath).getLast? = some (ascii 'b') := by
    rw [hxs, List.getLast?_append]
    have hb : (bytes Settings.databaseName).getLast? = some (ascii 'b') := by decide +kernel
    rw [hb]
    rfl
  rw [Locator.isMemory, Bool.or_eq_false_iff, decide_eq_false_iff_not, decide_eq_false_iff_not]
  refine ⟨fun h => ?_, fun h => ?_⟩
  · rw [h] at hlast
    cases hlast
  · rw [h] at hlast
    revert hlast
    decide

lemma journalFits_databasePlace (t : FileTree) (dir : String) :
    JournalFits (t.databasePlace dir) := by
  have hname : (bytes Settings.databaseName ++ bytes "-journal").length ≤ PathStep.longestName := by
    decide +kernel
  simpa [JournalFits, journalOf, Location.beside, databasePlace] using hname

/-- A database that cannot be opened cannot be opened later. -/
lemma Absent.opening (h : Absent dir place files) :
    ∃ fault after, opening dir files = (.error fault, after) ∧ fault.exitCode = 1 ∧
      after.lookup? place = files.lookup? place ∧ Absent dir place after := by
  cases h with
  | refused hdirs hnone =>
      rw [CommandLine.opening, hdirs]
      exact ⟨_, _, rfl, rfl, rfl, .refused hdirs hnone⟩
  | unreached prepared hresolve hnone =>
      rw [CommandLine.opening, prepared.makeDirectories]
      dsimp only
      rw [run_access_unreached (isMemory_databasePath _) hresolve]
      exact ⟨_, _, rfl, rfl, rfl, .unreached prepared hresolve hnone⟩
  | obstructed reached hobstructed =>
      have hname := journalFits_databasePlace files dir
      rw [← reached.place_eq] at hname
      obtain ⟨fault, after, hrun, hunopened⟩ := (ensures_access_obstructed
        (isMemory_databasePath _) reached.resolved hname hobstructed).exists_error
      rw [CommandLine.opening, reached.prepared.makeDirectories]
      dsimp only
      rw [hrun]
      exact ⟨_, _, rfl, rfl, hunopened.same,
        .obstructed (reached.keeps hunopened.keeps) hunopened.obstructed⟩

/-- In a data directory that is there the database is made where nothing is, or can never be made.
The path of the data directory may lead through the place of the database, and then there is a
directory. -/
lemma ensures_access_prepared (hprepared : files.Prepared dir)
    (hplace : files.databasePlace dir = place)
    (hnothing : files.lookup? place = none ∨ files.lookup? place = some .directory) :
    Ensures (access (.ofPath (settingsIn dir).databasePath)) files
      (fun opened after => opened = ((connectionTo dir place .empty).handle, .empty, .allowed) ∧
        InUse place .empty after ∧ Reached dir place after)
      (Absent dir place) := by
  have hmemory := isMemory_databasePath (settingsIn dir)
  cases hresolve : files.resolve (bytes (settingsIn dir).databasePath) with
  | none =>
      rw [Ensures, run_access_unreached hmemory hresolve]
      exact .unreached hprepared hresolve (tablesAt_of_nothing hnothing)
  | some reached =>
      obtain rfl : reached = place :=
        (FileTree.Prepared.place_of_resolve (s := settingsIn dir) hprepared hresolve).trans hplace
      have hreached : Reached dir reached files := ⟨hprepared, hresolve⟩
      have hname := journalFits_databasePlace files dir
      rw [hplace] at hname
      rcases hnothing with hnone | hdirectory
      · have htail : files.lookup? reached.tail = some .directory := by
          rw [← hplace]
          exact hprepared.stands_tail _ List.suffix_rfl
        refine (ensures_access_vacant hmemory hresolve hname htail hnone).mono ?_ ?_
        · intro opened after hafter
          exact ⟨hafter.1, hafter.2.1, hreached.keeps hafter.2.2⟩
        · intro after hafter
          exact .obstructed (hreached.keeps hafter.2) hafter.1
      · exact (ensures_access_obstructed hmemory hresolve hname (.directory hdirectory)).mono
          (fun _ _ => False.elim) fun _ h => .obstructed (hreached.keeps h.keeps) h.obstructed

/-- Where nothing is yet the database is made, or can never be made. -/
lemma Vacant.opening (h : Vacant dir place files) :
    (∃ fault after, opening dir files = (.error fault, after) ∧ fault.exitCode = 1 ∧
      Absent dir place after) ∨
    ∃ after, opening dir files = (.ok (connectionTo dir place .empty), after) ∧
      InUse place .empty after ∧ Reached dir place after := by
  have hplace := lookup?_makeDirectories files dir place
  rw [h.vacant] at hplace
  have hkeeps := keeps_makeDirectories files dir
  rw [CommandLine.opening]
  rcases hdirs : files.makeDirectories dir with ⟨fault | _, made⟩
  · rw [hdirs] at hplace
    obtain ⟨_, hrefused⟩ := makeDirectories_of_refused hdirs
    exact .inl ⟨_, _, rfl, rfl, .refused hrefused (tablesAt_of_nothing hplace)⟩
  · rw [hdirs] at hplace hkeeps
    have haccess := ensures_access_prepared (prepared_of_makeDirectories h.stands hdirs)
      ((hkeeps.databasePlace dir).trans h.place_eq) hplace
    dsimp only
    rcases haccess.ok_or_error with
      ⟨opened, after, hrun, rfl, hinUse, hreached⟩ | ⟨fault, after, hrun, habsent⟩
    · rw [hrun]
      exact .inr ⟨after, rfl, hinUse, hreached⟩
    · rw [hrun]
      exact .inl ⟨_, _, rfl, rfl, habsent⟩

/-- A database that is ready is opened with its tables. -/
lemma Ready.opening (h : Ready dir place db files) :
    opening dir files = (.ok (connectionTo dir place db), files.whileOpen place) := by
  rw [CommandLine.opening, h.reached.prepared.makeDirectories]
  dsimp only
  rw [run_access_kept (isMemory_databasePath _) h.reached.resolved h.kept]
  rfl

/-- What is closed is kept, and ready to be opened again. -/
lemma run_closeDatabase {w : World} (hreached : Reached dir place w.files)
    (hinUse : InUse place db w.files) {left : Database} (hleft : left.Schema) :
    ∃ after, Ready dir place left after ∧
      (closeDatabase (connectionTo dir place db) left : StateM World Unit) w =
        ((), { w with files := after }) := by
  have hclose : Ensures (FileTree.close (connectionTo dir place db).handle left .allowed) w.files
      (fun _ after => Kept place left after ∧ w.files.Keeps after) (fun _ => False) :=
    ensures_close_inUse (ne_nil_of_resolve hreached.resolved) hinUse left
  obtain ⟨u, after, hok, hkept, hkeeps⟩ := hclose.exists_ok
  have hrun : (closeDatabase (connectionTo dir place db) left : StateM World Unit) w =
      ((), (World.work (FileTree.close (connectionTo dir place db).handle left .allowed) w).2) :=
    rfl
  rw [hrun, run_work, hok]
  exact ⟨after, ⟨hreached.keeps hkeeps, hkept, hleft⟩, rfl⟩

/-- What is known of the files, and the tables of the database, if they are made. -/
inductive Stage (dir : String) (place : Location) (files : FileTree) : Option Database → Prop
  /-- There is nothing yet. -/
  | vacant (h : Vacant dir place files) : Stage dir place files none
  /-- There are no tables, and none can be made. -/
  | absent (h : Absent dir place files) : Stage dir place files none
  /-- The database is kept. -/
  | ready {db : Database} (h : Ready dir place db files) : Stage dir place files (some db)

lemma Absent.tablesAt_eq (h : Absent dir place files) : files.tablesAt place = none := by
  cases h with
  | refused _ hnone => exact hnone
  | unreached _ _ hnone => exact hnone
  | obstructed _ h => exact h.tablesAt_eq

lemma Stage.tablesAt_eq {found : Option Database} (h : Stage dir place files found) :
    files.tablesAt place = found := by
  cases h with
  | vacant h => exact tablesAt_of_nothing (.inl h.vacant)
  | absent h => exact h.tablesAt_eq
  | ready h => exact h.kept.toInUse.tablesAt_eq

lemma Stage.schema {found : Option Database} (h : Stage dir place files found) :
    ∀ db ∈ found, db.Schema := by
  rintro db ⟨⟩
  cases h with
  | ready h => exact h.schema

end Stages

end FilterStore.CommandLine
