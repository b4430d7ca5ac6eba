import FilterStore.Proofs.CommandLine.Course
import FilterStore.Proofs.Files.Upkeep

/-!
How commands run where the data directory is given.

* **Needs.** What a task needs besides the database is read from files and from the standard input,
  or is consent (`Task.Supplied`). A task gets it, or the command fails before the repository is
  asked (`run_prepare`, `Task.supply_eq_ok_iff`).
* **Opening.** With a given data directory and without a settings file the database is opened by
  making the directory and accessing the plain path of the database (`run_openDatabase`).
* **Commands.** What a command reports and leaves is read off what `opening` comes to
  (`run_init_of_ok`, `run_task_of_ok` and so on).
-/

namespace FilterStore.CommandLine

open FileTree Text

/-! ### What a task needs -/

/-- A task has what it needs besides the database: the content to be stored is the text of a file or
of the standard input, and consent is given. -/
def Task.Supplied (files : FileTree) (input : ByteArray) (content : String) : Task → Prop
  | .put _ _ (some path) => files.readFile input path = .ok content.toUTF8
  | .put _ _ none => input = content.toUTF8
  | .delete _ _ consent | .removeQuota _ consent => consent.yes = true ∧ content = ""
  | _ => content = ""

/-- What a task gets of what it needs. -/
def Task.supply (files : FileTree) (input : ByteArray) : Task → Except CommandFault String
  | .put _ _ (some path) =>
    (files.readFile input path >>= textOfBytes).mapError (.unreadableFile path)
  | .put _ _ none => (textOfBytes input).mapError .unreadableInput
  | .delete _ _ consent | .removeQuota _ consent => consent.require.map fun _ => ""
  | _ => .ok ""

section Supply

variable {files : FileTree} {input : ByteArray} {task : Task}

lemma mapError_eq_ok_iff {ε δ α : Type} {result : Except ε α} {f : ε → δ} {a : α} :
    result.mapError f = .ok a ↔ result = .ok a := by
  cases result <;> simp [Except.mapError]

lemma exists_of_mapError {ε δ α : Type} {result : Except ε α} {f : ε → δ} {fault : δ}
    (h : result.mapError f = .error fault) : ∃ e, fault = f e := by
  cases result with
  | error e => exact ⟨e, (Except.error.inj h).symm⟩
  | ok a => cases h

lemma Task.supply_eq_ok_iff {content : String} :
    task.supply files input = .ok content ↔ task.Supplied files input content := by
  cases task with
  | put owner name file =>
      cases file with
      | some path =>
          rw [supply, Supplied, mapError_eq_ok_iff]
          cases files.readFile input path with
          | error fault => exact iff_of_false nofun nofun
          | ok bytes =>
              change textOfBytes bytes = _ ↔ _
              rw [textOfBytes_eq_ok_iff, Except.ok.injEq]
      | none => rw [supply, Supplied, mapError_eq_ok_iff, textOfBytes_eq_ok_iff]
  | delete owner name consent | removeQuota key consent =>
      rw [supply, Supplied]
      rcases consent with ⟨_ | _, _ | _⟩ <;> simp [Consent.require, Except.map, eq_comm]
  | _ => simp [supply, Supplied, eq_comm]

/-- A task can be given one content only. -/
lemma Task.Supplied.unique {content other : String} (h : task.Supplied files input content)
    (hother : task.Supplied files input other) : content = other := by
  rw [← supply_eq_ok_iff] at h hother
  exact Except.ok.inj (h.symm.trans hother)

/-- What is missing is no matter of the repository. -/
lemma Task.fault_of_supply {fault : CommandFault} (h : task.supply files input = .error fault) :
    fault.exitCode = 1 ∧ ∀ failure, fault ≠ .failure failure := by
  cases task with
  | put owner name file =>
      cases file <;>
        · obtain ⟨e, rfl⟩ := exists_of_mapError h
          exact ⟨rfl, nofun⟩
  | delete owner name consent | removeQuota key consent =>
      rcases consent with ⟨_ | _, _ | _⟩ <;> cases h <;> exact ⟨rfl, nofun⟩
  | _ => cases h

/-- A task gets what it needs, or the command fails. -/
lemma run_prepare (task : Task) (w : World) :
    ∃ input, (prepare task : Part String).run w =
      (task.supply w.files w.input, { w with input }) := by
  cases task with
  | put owner name file =>
      cases file with
      | some path =>
          obtain ⟨input, hread⟩ := run_readFile path w
          have hrun : (prepare (.put owner name (some path)) : Part String).run w =
              (orStop (.unreadableFile path)
                (((Host.readFile path : StateM World (Except FileFault ByteArray)) w).1
                  >>= textOfBytes) : Part String).run
                ((Host.readFile path : StateM World (Except FileFault ByteArray)) w).2 := rfl
          rw [hrun, hread]
          exact ⟨input, rfl⟩
      | none => exact ⟨.empty, rfl⟩
  | delete owner name consent | removeQuota key consent =>
      rcases consent with ⟨_ | _, _ | _⟩ <;> exact ⟨w.input, rfl⟩
  | _ => exact ⟨w.input, rfl⟩

end Supply

/-! ### Runs -/

/-- A data directory is given, and no settings file. -/
def placesIn (dir : String) : Places :=
  ⟨some dir, none⟩

/-- The settings with a data directory that is given, and without a file. -/
def settingsIn (dir : String) : Settings :=
  Settings.default.withDataDir (some dir)

section Runs

variable {w : World} {dir : String}

lemma run_call {call : Call} {command : Command}
    (h : Invocation.ofWords call.words = .ok ⟨placesIn dir, command⟩) (files : FileTree) :
    call.run files =
      let ran := (runCommand (settingsIn dir) command : StateM World Report) (call.world files)
      (ran.1, ran.2.files) := by
  have hcall : call.run files =
      (((run call.words : StateM World Report) (call.world files)).1,
        ((run call.words : StateM World Report) (call.world files)).2.files) := rfl
  rw [hcall, run, h]
  rfl

lemma run_lift {α β : Type} (act : StateM World α) (f : α → Part β) (w : World) :
    (liftM act >>= f : Part β).run w = (f (act w).1).run (act w).2 :=
  rfl

lemma orStop_ok {ε α β : Type} (fault : ε → CommandFault) (a : α) (f : α → Part β) :
    (orStop fault (.ok a) >>= f) = f a :=
  rfl

/-- Makes the data directory and opens the database in it. -/
def opening (dir : String) (files : FileTree) :
    Except CommandFault (Connection Handle) × FileTree :=
  match files.makeDirectories dir with
  | (.error fault, files) => (.error (.failure (.file fault)), files)
  | (.ok (), files) =>
    match access (.ofPath (settingsIn dir).databasePath) files with
    | .ok (handle, db, writing) after => (.ok ⟨handle, db, writing⟩, after)
    | .error fault after => (.error (.failure (.storage (.access fault))), after)

lemma run_openDatabase
    (hplain : Locator.ofText (settingsIn dir).databasePath
      = .ok (.ofPath (settingsIn dir).databasePath)) (w : World) :
    (openDatabase (settingsIn dir) : Part (Connection Handle)).run w =
      ((opening dir w.files).1, { w with files := (opening dir w.files).2 }) := by
  have hdirs : (Host.makeDirectories (settingsIn dir).dataDir : StateM World _) w =
      ((w.files.makeDirectories dir).1, { w with files := (w.files.makeDirectories dir).2 }) := rfl
  rw [openDatabase, run_lift, hdirs, opening]
  rcases w.files.makeDirectories dir with ⟨_ | _, files⟩
  · rfl
  · dsimp only
    rw [orStop_ok, hplain, orRefuse, orStop_ok, run_lift]
    have hconnect : (Host.connect (.ofPath (settingsIn dir).databasePath) : StateM World _)
        { w with files } =
      World.work (FileTree.connect (.ofPath (settingsIn dir).databasePath)) { w with files } := rfl
    rw [hconnect, run_work, access]
    cases hrun : FileTree.connect (.ofPath (settingsIn dir).databasePath) files with
    | error fault after =>
        rw [run_bind_error hrun]
        rfl
    | ok handle after =>
        rw [run_bind_ok hrun]
        have hwait : ¬ longestWait < (settingsIn dir).busyTimeout :=
          (by decide : ¬ longestWait < Settings.default.busyTimeout)
        dsimp only
        rw [orRefuse, orStop_ok, if_neg hwait, run_lift]
        have hload : (Host.load handle : StateM World _) { w with files := after } =
          World.work (FileTree.load handle) { w with files := after } := rfl
        rw [hload, run_work]
        simp only [bind, EStateM.bind]
        cases FileTree.load handle after <;> rfl

/-- The connection to a database that may be written. -/
def connectionTo (dir : String) (place : Location) (db : Database) : Connection Handle :=
  ⟨⟨.ofPath (settingsIn dir).databasePath, some place⟩, db, .allowed⟩

/-! ### Commands -/

section Commands

variable {place : Location} {after : FileTree} {db : Database}
  (hplain : Locator.ofText (settingsIn dir).databasePath
    = .ok (.ofPath (settingsIn dir).databasePath))

include hplain

lemma run_init_of_error {fault : CommandFault} (h : opening dir w.files = (.error fault, after)) :
    (runCommand (settingsIn dir) .init : StateM World Report) w =
      (.ran (.error fault) [], { w with files := after }) := by
  dsimp only [runCommand]
  rw [run_bind, run_openDatabase hplain, h]
  rfl

lemma run_init_of_ok {c : Connection Handle} (h : opening dir w.files = (.ok c, after)) :
    (runCommand (settingsIn dir) .init : StateM World Report) w =
      (.ran (.ok s!"Initialized database at {(settingsIn dir).databasePath}\n")
          [.opened (settingsIn dir).databasePath],
        ((closeDatabase c c.database : StateM World Unit) { w with files := after }).2) := by
  dsimp only [runCommand]
  rw [run_bind, run_openDatabase hplain, h]
  rfl

omit hplain in
lemma run_task_of_absent (h : w.files.isPresent (settingsIn dir).databasePath = false)
    (task : Task) :
    (runCommand (settingsIn dir) (.task task) : StateM World Report) w =
      (.ran (.error (.noDatabase (settingsIn dir).databasePath)) [], w) := by
  have hopen : (openPresent (settingsIn dir) : Part (Connection Handle)).run w =
      (.error (.noDatabase (settingsIn dir).databasePath), w) := by
    rw [openPresent, run_lift]
    change ExceptT.run (if w.files.isPresent _ then _ else _ : Part _) w = _
    rw [h]
    rfl
  dsimp only [runCommand]
  rw [run_bind, hopen]
  rfl

lemma run_openPresent (h : w.files.isPresent (settingsIn dir).databasePath = true) :
    (openPresent (settingsIn dir) : Part (Connection Handle)).run w =
      ((opening dir w.files).1, { w with files := (opening dir w.files).2 }) := by
  rw [openPresent, run_lift, ← run_openDatabase hplain]
  change ExceptT.run (if w.files.isPresent _ then _ else _ : Part _) w = _
  rw [h]
  rfl

lemma run_task_of_error {fault : CommandFault}
    (hpresent : w.files.isPresent (settingsIn dir).databasePath = true)
    (h : opening dir w.files = (.error fault, after)) (task : Task) :
    (runCommand (settingsIn dir) (.task task) : StateM World Report) w =
      (.ran (.error fault) [], { w with files := after }) := by
  dsimp only [runCommand]
  rw [run_bind, run_openPresent hplain hpresent, h]
  rfl

lemma run_task_of_ok (hpresent : w.files.isPresent (settingsIn dir).databasePath = true)
    (h : opening dir w.files = (.ok (connectionTo dir place db), after)) (task : Task) :
    ∃ input, (runCommand (settingsIn dir) (.task task) : StateM World Report) w =
      match task.supply after w.input with
      | .error fault =>
        (.ran (.error fault) [.opened (settingsIn dir).databasePath],
          ((closeDatabase (connectionTo dir place db) db : StateM World Unit)
            ⟨after, input, w.now⟩).2)
      | .ok content =>
        (.ran ((task.perform w.now content db).result.mapError .failure)
            (.opened (settingsIn dir).databasePath :: (task.perform w.now content db).events),
          ((closeDatabase (connectionTo dir place db) (task.perform w.now content db).database :
            StateM World Unit) ⟨after, input, w.now⟩).2) := by
  obtain ⟨input, hprepare⟩ := run_prepare task { w with files := after }
  refine ⟨input, ?_⟩
  dsimp only [runCommand]
  rw [run_bind, run_openPresent hplain hpresent, h]
  dsimp only
  rw [run_bind, hprepare]
  cases task.supply after w.input with
  | error fault => rfl
  | ok content => rfl

end Commands

end Runs

end FilterStore.CommandLine
