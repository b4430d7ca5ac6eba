import FilterStore.Proofs.Files.Companions

/-!
Opening and closing the database of a plain path.

* **Making tables.** In a blank file the tables are made, and writes to them are logged, unless a
  directory stands where a file beside the database has to go (`ensures_load_blank`).
* **Obstacles.** A database is `Obstructed` if it cannot be opened for such a reason. It stays so
  whenever it is opened again (`ensures_access_obstructed`).
* **Keeping tables.** To close a database in use (`InUse`) takes its log and index away, so that it
  is `Kept` (`ensures_close_inUse`). Then it is opened with the same tables (`run_access_kept`), and
  the tree differs in the log and the index only (`whileOpen`).
* **From nothing.** Where nothing was the database is in use after it was opened, or it is
  obstructed (`ensures_access_vacant`).
-/

namespace FilterStore

open Text

/-- An entry is a file, of a database or not. -/
def FileEntry.IsFile : FileEntry → Prop
  | .file _ | .database _ _ => True
  | .directory | .input => False

namespace FileTree

variable {t after : FileTree} {place : Location} {path : String} {db : Database}

/-! ### A blank file -/

section Blank

/-- The tree in which writes to a blank file begin to be logged. -/
def begun (t : FileTree) (place : Location) : FileTree :=
  let swept := ((t.cleared (journalOf place)).cleared (logOf place)).removeFile (journalOf place)
  (swept.put place (.database none true)).withLog place

/-- The tree in which the tables of a blank file are made. -/
def made (t : FileTree) (place : Location) : FileTree :=
  (((t.begun place).put (indexOf place) (.file indexMark)).put (logOf place) (.file logMark)).put
    place (.database (some .empty) true)

/-- Nothing beside a blank file is in the way of its tables, except perhaps the index. -/
structure Clear (place : Location) (t : FileTree) : Prop where
  /-- The file is not the root. -/
  place_ne : place ≠ []
  /-- The file is blank. -/
  blank : isBlank (t.lookup? place) = true
  /-- There is no directory in the place of the journal. -/
  journal : t.lookup? (journalOf place) ≠ some .directory
  /-- There is no directory in the place of the log. -/
  log : t.lookup? (logOf place) ≠ some .directory

lemma exists_file_of_isBlank (h : isBlank (t.lookup? place) = true) :
    ∃ bytes, t.lookup? place = some (.file bytes) := by
  rcases hentry : t.lookup? place with _ | entry
  · rw [hentry] at h
    cases h
  · cases entry with
    | file bytes => exact ⟨bytes, rfl⟩
    | _ =>
        rw [hentry] at h
        cases h

lemma lookup?_ne_directory_of_isBlank (h : isBlank (t.lookup? place) = true) :
    t.lookup? place ≠ some .directory := by
  obtain ⟨bytes, hentry⟩ := exists_file_of_isBlank h
  simp [hentry]

namespace Clear

variable (h : Clear place t)

include h

lemma lookup?_begun : (t.begun place).lookup? place = some (.database none true) := by
  rw [begun, lookup?_withLog_of_ne (logOf_ne h.place_ne).symm, lookup?_put _ h.place_ne, if_pos rfl]

lemma isFilled_journal_begun : (t.begun place).isFilled (journalOf place) = false := by
  have hjournal : (t.begun place).lookup? (journalOf place) = none := by
    have hne := journalOf_ne_logOf h.place_ne
    rw [begun, lookup?_withLog_of_ne hne, lookup?_put_of_ne _ _ (journalOf_ne h.place_ne),
      lookup?_removeFile, if_pos rfl]
    rw [lookup?_cleared_of_ne _ hne, ne_eq, lookup?_cleared_eq_directory_iff]
    exact h.journal
  rw [isFilled, hjournal]

lemma isFilled_log_begun : (t.begun place).isFilled (logOf place) = false := by
  refine isFilled_withLog h.place_ne ?_
  have hne := (journalOf_ne_logOf h.place_ne).symm
  have hlog : (t.cleared (journalOf place)).lookup? (logOf place) ≠ some .directory := by
    rw [lookup?_cleared_of_ne _ hne]
    exact h.log
  rw [isFilled_congr (lookup?_put_of_ne _ _ (logOf_ne h.place_ne)),
    isFilled_congr (lookup?_removeFile_of_ne _ hne)]
  exact isFilled_cleared hlog

lemma lookup?_index_begun :
    (t.begun place).lookup? (indexOf place) = t.lookup? (indexOf place) := by
  have hlog := indexOf_ne_logOf h.place_ne
  have hjournal := indexOf_ne_journalOf h.place_ne
  rw [begun, lookup?_withLog_of_ne hlog, lookup?_put_of_ne _ _ (indexOf_ne h.place_ne),
    lookup?_removeFile_of_ne _ hjournal, lookup?_cleared_of_ne _ hlog,
    lookup?_cleared_of_ne _ hjournal]

lemma keeps_begun : t.Keeps (t.begun place) := by
  have hentry : ((((t.cleared (journalOf place)).cleared (logOf place)).removeFile
      (journalOf place)).lookup? place) = t.lookup? place := by
    have hjournal := (journalOf_ne h.place_ne).symm
    have hlog := (logOf_ne h.place_ne).symm
    rw [lookup?_removeFile_of_ne _ hjournal, lookup?_cleared_of_ne _ hlog,
      lookup?_cleared_of_ne _ hjournal]
  have hblank := lookup?_ne_directory_of_isBlank h.blank
  rw [← hentry] at hblank
  exact (keeps_cleared t _).trans <| (keeps_cleared _ _).trans <| (Keeps.removeFile _ _).trans <|
    (Keeps.put hblank _).trans (keeps_withLog _ _)

end Clear

lemma run_inspect_blank (h : isBlank (t.lookup? place) = true) (found fixed : Bool) :
    inspect (.ofPath path) place true found fixed t = .ok ⟨none, false, false⟩ t := by
  obtain ⟨bytes, hentry⟩ := exists_file_of_isBlank h
  rw [inspect, run_entryAt, hentry]
  rfl

/-- To look at a blank file clears what is beside it. -/
lemma run_examine_blank (hplace : place ≠ []) (h : isBlank (t.lookup? place) = true)
    (hlog : t.lookup? (logOf place) ≠ some .directory) :
    examine (.ofPath path) place t =
      .ok ⟨none, false, false⟩ ((t.cleared (journalOf place)).cleared (logOf place)) := by
  have hjournal := lookup?_cleared_of_ne t (journalOf_ne hplace).symm
  have hlog' := lookup?_cleared_of_ne t (journalOf_ne_logOf hplace).symm
  rw [← hlog'] at hlog
  rw [examine, run_bind_ok (run_checkLock path place t), run_bind_ok (run_recover_blank h),
    run_entryAt, hjournal, h, run_bind_ok (run_findLog_blank hlog)]
  refine run_inspect_blank ?_ false false
  rw [lookup?_cleared_of_ne _ (logOf_ne hplace).symm, hjournal]
  exact h

lemma run_load (path : String) (place : Location) (t : FileTree) :
    load ⟨.ofPath path, some place⟩ t
      = (examine (.ofPath path) place >>= provide (.ofPath path) place) t :=
  rfl

variable (hname : JournalFits place)

include hname

/-- Logging begins with a write without a log. -/
lemma run_keepLog_blank (path : String) (h : Clear place t) :
    keepLog (.ofPath path) place ⟨none, false, false⟩
        ((t.cleared (journalOf place)).cleared (logOf place)) =
      (openIndex (.ofPath path) place >>= fun fixed => pure ⟨none, true, fixed⟩)
        (t.begun place) := by
  have hjournal : ((t.cleared (journalOf place)).cleared (logOf place)).lookup? (journalOf place)
      ≠ some .directory := by
    rw [lookup?_cleared_of_ne _ (journalOf_ne_logOf h.place_ne), ne_eq,
      lookup?_cleared_eq_directory_iff]
    exact h.journal
  change (passJournal place >>= _) _ = _
  rw [run_bind_ok (run_passJournal hname hjournal)]
  change (openLog (.ofPath path) place >>= _) _ = _
  simp only [bind, EStateM.bind, run_openLog]
  rfl

/-- In a blank file tables are made, and writes to them are logged. -/
lemma run_load_blank (h : Clear place t) (hindex : t.lookup? (indexOf place) ≠ some .directory) :
    load ⟨.ofPath path, some place⟩ t =
      .ok (.empty, .allowed) (t.made place) := by
  rw [← h.lookup?_index_begun] at hindex
  rw [run_load, run_bind_ok (run_examine_blank h.place_ne h.blank h.log)]
  have hkeep := run_keepLog_blank hname path h
  rw [run_bind_ok (run_openIndex hindex)] at hkeep
  rw [provide, run_bind_ok hkeep]
  rfl

/-- Without an index nothing can be written, and no tables are made. -/
lemma run_load_blank_index (h : Clear place t)
    (hindex : t.lookup? (indexOf place) = some .directory) :
    load ⟨.ofPath path, some place⟩ t = .error .readOnly (t.begun place) := by
  rw [← h.lookup?_index_begun] at hindex
  rw [run_load, run_bind_ok (run_examine_blank h.place_ne h.blank h.log)]
  have hkeep := run_keepLog_blank hname path h
  rw [run_bind_ok (run_openIndex_directory hindex)] at hkeep
  rw [provide, run_bind_ok hkeep]
  rfl

end Blank

/-! ### A database with a log -/

section Logged

/-- What is seen of a database with a log depends on the index. -/
lemma run_examine_logged (path : String) {tables? : Option Database}
    (hentry : t.lookup? place = some (.database tables? true))
    (hjournal : t.isFilled (journalOf place) = false) (hlog : t.isFilled (logOf place) = false) :
    examine (.ofPath path) place t =
      (openIndex (.ofPath path) place >>= fun fixed => pure ⟨tables?, true, fixed⟩)
        (t.withLog place) := by
  have hinspect : inspect (.ofPath path) place false false false t =
      (openLog (.ofPath path) place >>= fun fixed => pure ⟨tables?, true, fixed⟩) t := by
    rw [inspect, run_entryAt, hentry]
    rfl
  rw [examine, run_bind_ok (run_checkLock path place t),
    run_bind_ok (run_recover_of_not_filled hjournal), run_entryAt, hentry,
    run_bind_ok (run_findLog_of_not_filled hlog _)]
  change inspect (.ofPath path) place false false false t = _
  rw [hinspect]
  simp only [bind, EStateM.bind, run_openLog]

/-- A database is in use. -/
structure InUse (place : Location) (db : Database) (t : FileTree) : Prop where
  /-- Its tables are made, and writes to it are logged. -/
  entry : t.lookup? place = some (.database (some db) true)
  /-- Nothing is left to be undone. -/
  journal : t.isFilled (journalOf place) = false
  /-- The log is no directory. -/
  log : t.lookup? (logOf place) ≠ some .directory
  /-- The index is no directory. -/
  index : t.lookup? (indexOf place) ≠ some .directory

/-- A database is kept for later. -/
structure Kept (place : Location) (db : Database) (t : FileTree) : Prop
    extends InUse place db t where
  /-- The log is gone. -/
  swept : t.isFilled (logOf place) = false

/-- A database that cannot be opened. -/
inductive Obstructed (place : Location) (t : FileTree) : Prop
  /-- A directory stands in its place. -/
  | directory (h : t.lookup? place = some .directory)
  /-- It is missing, and cannot be made. -/
  | fixed (h : t.lookup? place = none) (hfixed : place.tail ∈ t.fixed)
  /-- It is blank, and a directory stands in the place of its log. -/
  | log (h : isBlank (t.lookup? place) = true) (hlog : t.lookup? (logOf place) = some .directory)
  /-- It is blank, and a directory stands in the place of its journal. -/
  | journal (h : isBlank (t.lookup? place) = true)
    (hjournal : t.lookup? (journalOf place) = some .directory)
  /-- It is without tables, and a directory stands in the place of the index. -/
  | index (h : t.lookup? place = some (.database none true))
    (hjournal : t.isFilled (journalOf place) = false) (hlog : t.isFilled (logOf place) = false)
    (hindex : t.lookup? (indexOf place) = some .directory)

lemma Obstructed.tablesAt_eq (h : Obstructed place t) : t.tablesAt place = none := by
  cases h with
  | directory h | fixed h _ | index h _ _ _ =>
      rw [tablesAt, h]
      rfl
  | log h _ | journal h _ => exact tablesAt_of_isBlank h

/-- A database could not be opened, and cannot be from then on. It is what it was. -/
structure Unopened (place : Location) (t after : FileTree) : Prop where
  /-- It cannot be opened. -/
  obstructed : Obstructed place after
  /-- What stands in its place is the same. -/
  same : after.lookup? place = t.lookup? place
  /-- Directories stay. -/
  keeps : t.Keeps after

lemma InUse.tablesAt_eq (h : InUse place db t) : t.tablesAt place = some db := by
  rw [tablesAt, h.entry]
  rfl

end Logged

/-! ### Loading and closing -/

namespace Clear

variable (h : Clear place t)

include h

lemma inUse_made : InUse place .empty (t.made place) where
  entry := by rw [made, lookup?_put _ h.place_ne, if_pos rfl]
  journal := by
    rw [made, isFilled_congr (lookup?_put_of_ne _ _ (journalOf_ne h.place_ne)),
      isFilled_congr (lookup?_put_of_ne _ _ (journalOf_ne_logOf h.place_ne)),
      isFilled_congr (lookup?_put_of_ne _ _ (indexOf_ne_journalOf h.place_ne).symm)]
    exact h.isFilled_journal_begun
  log := by
    have hroot : logOf place ≠ [] := beside_ne_nil h.place_ne
    rw [made, lookup?_put_of_ne _ _ (logOf_ne h.place_ne), lookup?_put _ hroot, if_pos rfl]
    simp
  index := by
    have hroot : indexOf place ≠ [] := beside_ne_nil h.place_ne
    rw [made, lookup?_put_of_ne _ _ (indexOf_ne h.place_ne),
      lookup?_put_of_ne _ _ (indexOf_ne_logOf h.place_ne), lookup?_put _ hroot, if_pos rfl]
    simp

lemma keeps_made (hindex : t.lookup? (indexOf place) ≠ some .directory) :
    t.Keeps (t.made place) := by
  have hlog : ((t.begun place).put (indexOf place) (.file indexMark)).lookup? (logOf place)
      ≠ some .directory := by
    rw [lookup?_put_of_ne _ _ (indexOf_ne_logOf h.place_ne).symm]
    exact lookup?_ne_directory h.isFilled_log_begun
  have hentry : (((t.begun place).put (indexOf place) (.file indexMark)).put (logOf place)
      (.file logMark)).lookup? place ≠ some .directory := by
    rw [lookup?_put_of_ne _ _ (logOf_ne h.place_ne).symm,
      lookup?_put_of_ne _ _ (indexOf_ne h.place_ne).symm, h.lookup?_begun]
    simp
  rw [← h.lookup?_index_begun] at hindex
  exact h.keeps_begun.trans <| (Keeps.put hindex _).trans <| (Keeps.put hlog _).trans <|
    Keeps.put hentry _

end Clear

/-- The tree while a database that was kept is open. -/
def whileOpen (t : FileTree) (place : Location) : FileTree :=
  (t.withLog place).put (indexOf place) (.file indexMark)

/-- Only the log and the index differ. -/
lemma lookup?_whileOpen {other : Location} (hlog : other ≠ logOf place)
    (hindex : other ≠ indexOf place) (t : FileTree) :
    (t.whileOpen place).lookup? other = t.lookup? other := by
  rw [whileOpen, lookup?_put_of_ne _ _ hindex, lookup?_withLog_of_ne hlog]

namespace Kept

variable (hplace : place ≠ []) (h : Kept place db t)

include hplace h

lemma index_withLog : (t.withLog place).lookup? (indexOf place) ≠ some .directory := by
  rw [lookup?_withLog_of_ne (indexOf_ne_logOf hplace)]
  exact h.index

/-- A kept database is loaded with its tables. -/
lemma run_load (path : String) :
    load ⟨.ofPath path, some place⟩ t = .ok (db, .allowed) (t.whileOpen place) := by
  have hexamine := run_examine_logged path h.entry h.journal h.swept
  rw [run_bind_ok (run_openIndex (h.index_withLog hplace))] at hexamine
  rw [FileTree.run_load, run_bind_ok hexamine]
  rfl

lemma keeps_whileOpen : t.Keeps (t.whileOpen place) :=
  (keeps_withLog t place).trans (.put (h.index_withLog hplace) _)

lemma inUse_whileOpen : InUse place db (t.whileOpen place) where
  entry := by
    rw [lookup?_whileOpen (logOf_ne hplace).symm (indexOf_ne hplace).symm]
    exact h.entry
  journal := by
    rw [isFilled_congr (lookup?_whileOpen (journalOf_ne_logOf hplace)
      (indexOf_ne_journalOf hplace).symm t)]
    exact h.journal
  log := by
    rw [whileOpen, lookup?_put_of_ne _ _ (indexOf_ne_logOf hplace).symm]
    exact lookup?_ne_directory (isFilled_withLog hplace h.swept)
  index := by
    have hroot : indexOf place ≠ [] := beside_ne_nil hplace
    rw [whileOpen, lookup?_put _ hroot, if_pos rfl]
    simp

end Kept

section Loading

variable (hplace : place ≠ [])

include hplace

/-- A directory in the place of the log is in the way of all that follows. -/
lemma ensures_load_log (h : isBlank (t.lookup? place) = true)
    (hlog : t.lookup? (logOf place) = some .directory) :
    Ensures (load ⟨.ofPath path, some place⟩) t (fun _ _ => False) (Unopened place t) := by
  have hsame := lookup?_cleared_of_ne t (journalOf_ne hplace).symm
  have hkeeps := keeps_cleared t (journalOf place)
  have hlog' := hkeeps.directories _ hlog
  have hrun : examine (.ofPath path) place t =
      .error .unremovable (t.cleared (journalOf place)) := by
    rw [examine, run_bind_ok (run_checkLock path place t), run_bind_ok (run_recover_blank h),
      run_entryAt, hsame, h, run_bind_error (run_findLog_directory hlog')]
  rw [Ensures, run_load, run_bind_error hrun]
  exact ⟨.log (hsame ▸ h) hlog', hsame, hkeeps⟩

variable (hname : JournalFits place)

include hname

/-- Without a journal logging cannot begin. -/
lemma ensures_load_journal (h : isBlank (t.lookup? place) = true)
    (hjournal : t.lookup? (journalOf place) = some .directory) :
    Ensures (load ⟨.ofPath path, some place⟩) t (fun _ _ => False) (Unopened place t) := by
  by_cases hlog : t.lookup? (logOf place) = some .directory
  · exact ensures_load_log hplace h hlog
  · have hsame := (lookup?_cleared_of_ne (t.cleared (journalOf place))
      (logOf_ne hplace).symm).trans (lookup?_cleared_of_ne t (journalOf_ne hplace).symm)
    have hkeeps := (keeps_cleared t (journalOf place)).trans (keeps_cleared _ (logOf place))
    have hjournal' := hkeeps.directories _ hjournal
    have hkeep : keepLog (.ofPath path) place ⟨none, false, false⟩
        ((t.cleared (journalOf place)).cleared (logOf place)) =
          .error .cannotOpenBeside ((t.cleared (journalOf place)).cleared (logOf place)) := by
      change (passJournal place >>= _) _ = _
      rw [run_bind_error (run_passJournal_directory hname hjournal')]
    rw [Ensures, run_load, run_bind_ok (run_examine_blank hplace h hlog), provide,
      run_bind_error hkeep]
    exact ⟨.journal (hsame ▸ h) hjournal', hsame, hkeeps⟩

/-- In a blank file tables are made, unless something is in the way. -/
lemma ensures_load_blank (h : isBlank (t.lookup? place) = true) :
    Ensures (load ⟨.ofPath path, some place⟩) t
      (fun opened after => opened = (.empty, .allowed) ∧ InUse place .empty after ∧ t.Keeps after)
      (fun after => Obstructed place after ∧ t.Keeps after) := by
  by_cases hlog : t.lookup? (logOf place) = some .directory
  · exact (ensures_load_log hplace h hlog).mono (fun _ _ => False.elim) fun _ hu =>
      ⟨hu.obstructed, hu.keeps⟩
  by_cases hjournal : t.lookup? (journalOf place) = some .directory
  · exact (ensures_load_journal hplace hname h hjournal).mono (fun _ _ => False.elim) fun _ hu =>
      ⟨hu.obstructed, hu.keeps⟩
  have hclear : Clear place t := ⟨hplace, h, hjournal, hlog⟩
  rw [Ensures]
  by_cases hindex : t.lookup? (indexOf place) = some .directory
  · rw [run_load_blank_index hname hclear hindex]
    exact ⟨.index hclear.lookup?_begun hclear.isFilled_journal_begun hclear.isFilled_log_begun
      (hclear.lookup?_index_begun.trans hindex), hclear.keeps_begun⟩
  · rw [run_load_blank hname hclear hindex]
    exact ⟨rfl, hclear.inUse_made, hclear.keeps_made hindex⟩

omit hname in
/-- A database that is closed is kept, with the tables that it is closed with. -/
lemma ensures_close_inUse (h : InUse place db t) (db' : Database) :
    Ensures (close ⟨.ofPath path, some place⟩ db' .allowed) t
      (fun _ after => Kept place db' after ∧ t.Keeps after) (fun _ => False) := by
  have hrun : close ⟨.ofPath path, some place⟩ db' .allowed t =
      .ok () (((t.put place (.database (some db') true)).removeFile (logOf place)).removeFile
        (indexOf place)) := by
    change (entryAt place >>= _) t = _
    rw [run_entryAt, h.entry]
    rfl
  have hlog : (t.put place (.database (some db') true)).lookup? (logOf place)
      ≠ some .directory := by
    rw [lookup?_put_of_ne _ _ (logOf_ne hplace)]
    exact h.log
  have hindex : ((t.put place (.database (some db') true)).removeFile (logOf place)).lookup?
      (indexOf place) ≠ some .directory := by
    rw [lookup?_removeFile_of_ne _ (indexOf_ne_logOf hplace),
      lookup?_put_of_ne _ _ (indexOf_ne hplace)]
    exact h.index
  have hentry : t.lookup? place ≠ some .directory := by simp [h.entry]
  have hgone : (((t.put place (.database (some db') true)).removeFile (logOf place)).removeFile
      (indexOf place)).lookup? (logOf place) = none := by
    rw [lookup?_removeFile_of_ne _ (indexOf_ne_logOf hplace).symm, lookup?_removeFile hlog,
      if_pos rfl]
  rw [Ensures, hrun]
  refine ⟨⟨⟨?entry, ?journal, ?log, ?index⟩, ?swept⟩,
    (Keeps.put hentry _).trans ((Keeps.removeFile _ _).trans (.removeFile _ _))⟩
  case entry =>
    rw [lookup?_removeFile_of_ne _ (indexOf_ne hplace).symm,
      lookup?_removeFile_of_ne _ (logOf_ne hplace).symm, lookup?_put _ hplace, if_pos rfl]
  case journal =>
    rw [isFilled_congr (lookup?_removeFile_of_ne _ (indexOf_ne_journalOf hplace).symm),
      isFilled_congr (lookup?_removeFile_of_ne _ (journalOf_ne_logOf hplace)),
      isFilled_congr (lookup?_put_of_ne _ _ (journalOf_ne hplace))]
    exact h.journal
  case log => simp [hgone]
  case index => simp [lookup?_removeFile hindex]
  case swept => rw [isFilled, hgone]

omit hname in
/-- Without an index no tables are made. -/
lemma ensures_load_index (h : t.lookup? place = some (.database none true))
    (hjournal : t.isFilled (journalOf place) = false) (hlog : t.isFilled (logOf place) = false)
    (hindex : t.lookup? (indexOf place) = some .directory) :
    Ensures (load ⟨.ofPath path, some place⟩) t (fun _ _ => False) (Unopened place t) := by
  have hsame := lookup?_withLog_of_ne (logOf_ne hplace).symm t
  have hindex' := (lookup?_withLog_of_ne (indexOf_ne_logOf hplace) t).trans hindex
  have hexamine := run_examine_logged path h hjournal hlog
  rw [run_bind_ok (run_openIndex_directory hindex')] at hexamine
  rw [Ensures, run_load, run_bind_ok hexamine]
  refine ⟨.index (hsame.trans h) ?_ (isFilled_withLog hplace hlog) hindex', hsame,
    keeps_withLog t place⟩
  rw [isFilled_congr (lookup?_withLog_of_ne (journalOf_ne_logOf hplace) t)]
  exact hjournal

end Loading

/-! ### Opening -/

/-- Opens a database and loads its tables. -/
def access (l : Locator) : Work (Handle × Database × Writing) := do
  let h ← connect l
  return (h, ← load h)

/-- A file that is there can be opened. -/
lemma run_openFile_file {entry : FileEntry} (hentry : t.lookup? place = some entry)
    (hkind : entry.IsFile) : openFile (.ofPath path) place t = .ok () t := by
  rw [openFile, run_entryAt, hentry]
  cases entry with
  | directory | input => exact hkind.elim
  | file | database => rfl

/-- A directory cannot. -/
lemma run_openFile_directory (h : t.lookup? place = some .directory) :
    openFile (.ofPath path) place t = .error (.cannotOpen path) t := by
  rw [openFile, run_entryAt, h]
  rfl

lemma run_openFile_none (h : t.lookup? place = none) :
    openFile (.ofPath path) place t =
      match t.lookup? place.tail, t.fixed.contains place.tail with
      | some .directory, false => .ok () (t.put place (.file .empty))
      | _, _ => .error (.cannotOpen path) t := by
  rw [openFile, run_entryAt, h]
  change (entryAt place.tail >>= _) t = _
  simp only [run_entryAt, run_get]
  rcases t.lookup? place.tail with _ | entry
  · rfl
  · cases entry with
    | directory => cases t.fixed.contains place.tail <;> rfl
    | _ => rfl

section Opening

variable (hfile : Locator.isMemory (bytes path) = false)

include hfile

lemma file?_ofPath : (Locator.ofPath path).file? = some (bytes path) := by
  rw [Locator.ofPath, hfile]
  rfl

/-- A database to which the path does not lead is not opened. -/
lemma run_access_unreached (h : t.resolve (bytes path) = none) :
    access (.ofPath path) t = .error (.cannotOpen path) t := by
  have hconnect : connect (.ofPath path) t = .error (.cannotOpen path) t := by
    unfold connect
    simp only [file?_ofPath hfile, run_get, h]
    rfl
  rw [access, run_bind_error hconnect]

variable (h : t.resolve (bytes path) = some place)

include h

lemma run_connect :
    connect (.ofPath path) t =
      (openFile (.ofPath path) place >>= fun _ => pure ⟨.ofPath path, some place⟩) t := by
  unfold connect
  simp only [file?_ofPath hfile, run_get, h]
  rfl

/-- A file that is there is opened. -/
lemma run_access_file {entry : FileEntry} (hentry : t.lookup? place = some entry)
    (hkind : entry.IsFile) :
    access (.ofPath path) t =
      (load ⟨.ofPath path, some place⟩ >>= fun opened =>
        pure (⟨.ofPath path, some place⟩, opened)) t := by
  have hconnect := run_connect hfile h
  rw [run_bind_ok (run_openFile_file hentry hkind)] at hconnect
  rw [access, run_bind_ok hconnect]

lemma run_access_of_refused
    (hopen : openFile (.ofPath path) place t = .error (.cannotOpen path) t) :
    access (.ofPath path) t = .error (.cannotOpen path) t := by
  have hconnect := run_connect hfile h
  rw [run_bind_error hopen] at hconnect
  rw [access, run_bind_error hconnect]

variable (hname : JournalFits place)

include hname

/-- What cannot be opened cannot be opened later, and stays as it is. -/
lemma ensures_access_obstructed (hobstructed : Obstructed place t) :
    Ensures (access (.ofPath path)) t (fun _ _ => False) (Unopened place t) := by
  have hplace : place ≠ [] := ne_nil_of_resolve h
  have hfound : ∀ entry, t.lookup? place = some entry → entry.IsFile →
      Ensures (load ⟨.ofPath path, some place⟩) t (fun _ _ => False) (Unopened place t) →
      Ensures (access (.ofPath path)) t (fun _ _ => False) (Unopened place t) := by
    intro entry hentry hkind hload
    rw [Ensures, run_access_file hfile h hentry hkind]
    exact ensures_bind hload fun _ _ => False.elim
  cases hobstructed with
  | directory hd =>
      rw [Ensures, run_access_of_refused hfile h (run_openFile_directory hd)]
      exact ⟨.directory hd, rfl, .refl t⟩
  | fixed hnone hfixed =>
      have hopen : openFile (.ofPath path) place t = .error (.cannotOpen path) t := by
        rw [run_openFile_none hnone, List.contains_iff_mem.mpr hfixed]
        split
        · next hcontains => cases hcontains
        · rfl
      rw [Ensures, run_access_of_refused hfile h hopen]
      exact ⟨.fixed hnone hfixed, rfl, .refl t⟩
  | log hblank hlog =>
      obtain ⟨bytes, hentry⟩ := exists_file_of_isBlank hblank
      exact hfound _ hentry trivial (ensures_load_log hplace hblank hlog)
  | journal hblank hjournal =>
      obtain ⟨bytes, hentry⟩ := exists_file_of_isBlank hblank
      exact hfound _ hentry trivial (ensures_load_journal hplace hname hblank hjournal)
  | index hentry hjournal hlog hindex =>
      exact hfound _ hentry trivial (ensures_load_index hplace hentry hjournal hlog hindex)

/-- Where nothing is a file is made, if the directory takes it, and tables in it. -/
lemma ensures_access_vacant (htail : t.lookup? place.tail = some .directory)
    (hnone : t.lookup? place = none) :
    Ensures (access (.ofPath path)) t
      (fun opened after => opened = (⟨.ofPath path, some place⟩, .empty, .allowed) ∧
        InUse place .empty after ∧ t.Keeps after)
      (fun after => Obstructed place after ∧ t.Keeps after) := by
  have hplace : place ≠ [] := ne_nil_of_resolve h
  by_cases hfixed : place.tail ∈ t.fixed
  · exact (ensures_access_obstructed hfile h hname (.fixed hnone hfixed)).mono
      (fun _ _ => False.elim) fun _ hu => ⟨hu.obstructed, hu.keeps⟩
  · have hopen : openFile (.ofPath path) place t = .ok () (t.put place (.file .empty)) := by
      have hcontains : t.fixed.contains place.tail = false := by simpa using hfixed
      rw [run_openFile_none hnone, hcontains, htail]
    have hconnect := run_connect hfile h
    rw [run_bind_ok hopen] at hconnect
    have hblank : isBlank ((t.put place (.file .empty)).lookup? place) = true := by
      rw [lookup?_put t hplace, if_pos rfl]
      rfl
    have hkeeps : t.Keeps (t.put place (.file .empty)) := .put (by simp [hnone]) _
    have hload : Ensures (load ⟨.ofPath path, some place⟩) (t.put place (.file .empty))
        (fun opened after => opened = (.empty, .allowed) ∧ InUse place .empty after ∧ t.Keeps after)
        (fun after => Obstructed place after ∧ t.Keeps after) := by
      refine (ensures_load_blank hplace hname hblank).mono ?_ ?_
      · intro opened after hafter
        exact ⟨hafter.1, hafter.2.1, hkeeps.trans hafter.2.2⟩
      · intro after hafter
        exact ⟨hafter.1, hkeeps.trans hafter.2⟩
    rw [Ensures, access, run_bind_ok hconnect]
    refine ensures_bind hload fun opened after hafter => ?_
    obtain ⟨rfl, hinUse, hkept⟩ := hafter
    exact ⟨rfl, hinUse, hkept⟩

omit hname in
/-- A kept database is opened with its tables. -/
lemma run_access_kept (hkept : Kept place db t) :
    access (.ofPath path) t =
      .ok (⟨.ofPath path, some place⟩, db, .allowed) (t.whileOpen place) := by
  rw [run_access_file hfile h hkept.entry trivial,
    run_bind_ok (hkept.run_load (ne_nil_of_resolve h) path)]
  rfl

end Opening

end FileTree

end FilterStore
