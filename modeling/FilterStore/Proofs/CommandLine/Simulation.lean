import FilterStore.Proofs.CommandLine.Sentence
import FilterStore.Proofs.CommandLine.Stage

/-!
The command line simulates the repository.

* **Cases.** `Call.Simulates` lists what a call with a given data directory answers, from the tables
  that were found, and the tables that it leaves. A call keeps the stages of the database and comes
  to one of these cases (`steps_run`).
* **Answers.** What the cases say of exit codes, errors, outputs and tables is read off them one by
  one, and put together in `Call.Simulated`.
* **Sequences.** After any calls there are tables exactly if one of them has made the database, and
  the next call does what its method does (`simulated_runAll`). Without a plain path this fails
  (`not_simulated_of_uri`).
-/

namespace FilterStore.CommandLine

open FileTree Text

/-! ### Simulation -/

/-- What a call answers on a database of which the tables, if they are made, are known, and the
tables that are left. -/
inductive Call.Simulates (call : Call) (path : String) (whileOpen : FileTree) :
    Command → Option Database → Report → Option Database → Prop
  /-- Without tables no task is performed. -/
  | missing {task : Task} {fault : CommandFault} (code : fault.exitCode = 1) :
    Simulates call path whileOpen (.task task) none (.ran (.error fault) []) none
  /-- The database cannot be made. -/
  | unmade {fault : CommandFault} (code : fault.exitCode = 1) :
    Simulates call path whileOpen .init none (.ran (.error fault) []) none
  /-- The database is made, or is there. -/
  | made (found : Option Database) :
    Simulates call path whileOpen .init found
      (.ran (.ok s!"Initialized database at {path}\n") [.opened path])
      (some (found.getD .empty))
  /-- A task that has not what it needs is not performed. -/
  | unsupplied {task : Task} {fault : CommandFault} (db : Database)
    (missing : ∀ content, ¬ task.Supplied whileOpen call.input content)
    (code : fault.exitCode = 1) (fault_ne : ∀ failure, fault ≠ .failure failure) :
    Simulates call path whileOpen (.task task) (some db) (.ran (.error fault) [.opened path])
      (some db)
  /-- Any other task is performed by its method. -/
  | performed {task : Task} {content : String} (db : Database)
    (supplied : task.Supplied whileOpen call.input content) :
    Simulates call path whileOpen (.task task) (some db)
      (.ran ((((task.request content).run call.now db).result.map (task.shown content)).mapError
          .failure)
        (.opened path :: ((task.request content).run call.now db).events))
      (some ((task.request content).run call.now db).database)

section Simulation

variable {dir : String} {place : Location} {files : FileTree} {call : Call} {command : Command}
  {found : Option Database}

/-- A call answers as it should, and leaves the files at a stage. -/
structure Call.Steps (call : Call) (dir : String) (place : Location) (files : FileTree)
    (command : Command) (found : Option Database) (report : Report) (after : FileTree)
    (left : Option Database) : Prop where
  /-- The files are at a stage. -/
  stage : Stage dir place after left
  /-- The call answers as it should. -/
  simulates : call.Simulates (settingsIn dir).databasePath (files.whileOpen place) command found
    report left
  /-- Without tables a task leaves what stands in the place of the database. -/
  same : found = none → command ≠ .init → after.lookup? place = files.lookup? place

/-- So does the command of a call. -/
def Call.Proceeds (call : Call) (dir : String) (place : Location) (files : FileTree)
    (command : Command) (found : Option Database) : Prop :=
  ∃ left, call.Steps dir place files command found
    ((runCommand (settingsIn dir) command : StateM World Report) (call.world files)).1
    ((runCommand (settingsIn dir) command : StateM World Report) (call.world files)).2.files left

variable (hplain : Locator.ofText (settingsIn dir).databasePath
  = .ok (.ofPath (settingsIn dir).databasePath))
  (hshort : (bytes dir).length < Path.lengthBound →
    (bytes (settingsIn dir).databasePath).length < Path.lengthBound)

include hplain

lemma proceeds_init_of_error {fault : CommandFault} {after : FileTree}
    (hopening : opening dir files = (.error fault, after)) (hcode : fault.exitCode = 1)
    (habsent : Absent dir place after) : call.Proceeds dir place files .init none := by
  rw [Call.Proceeds, run_init_of_error (w := call.world files) hplain hopening]
  exact ⟨none, .absent habsent, .unmade hcode, fun _ hne => absurd rfl hne⟩

lemma proceeds_init_of_ok {db : Database} {after : FileTree}
    (hopening : opening dir files = (.ok (connectionTo dir place db), after))
    (hinUse : InUse place db after) (hreached : Reached dir place after) (hdb : db.Schema)
    (hfound : found.getD .empty = db) : call.Proceeds dir place files .init found := by
  obtain ⟨closed, hready, hclose⟩ := run_closeDatabase
    (w := { call.world files with files := after }) hreached hinUse hdb
  have hdatabase : (connectionTo dir place db).database = db := rfl
  rw [Call.Proceeds, run_init_of_ok (w := call.world files) hplain hopening, hdatabase, hclose]
  refine ⟨some db, .ready hready, ?_, fun _ hne => absurd rfl hne⟩
  rw [← hfound]
  exact .made found

/-- The database is made, unless it cannot be. -/
lemma proceeds_init (h : Stage dir place files found) :
    call.Proceeds dir place files .init found := by
  cases h with
  | vacant h =>
      rcases h.opening with
        ⟨fault, after, hopening, hcode, habsent⟩ | ⟨after, hopening, hinUse, hreached⟩
      · exact proceeds_init_of_error hplain hopening hcode habsent
      · exact proceeds_init_of_ok hplain hopening hinUse hreached Database.schema_empty rfl
  | absent h =>
      obtain ⟨fault, after, hopening, hcode, -, habsent⟩ := h.opening
      exact proceeds_init_of_error hplain hopening hcode habsent
  | ready h =>
      have hplace := ne_nil_of_resolve h.reached.resolved
      exact proceeds_init_of_ok hplain h.opening (h.kept.inUse_whileOpen hplace)
        (h.reached.keeps (h.kept.keeps_whileOpen hplace)) h.schema rfl

omit hplain in
lemma proceeds_task_of_absent (h : Stage dir place files none)
    (hpresent : files.isPresent (settingsIn dir).databasePath = false) (task : Task) :
    call.Proceeds dir place files (.task task) none := by
  rw [Call.Proceeds, run_task_of_absent (w := call.world files) hpresent]
  exact ⟨none, h, .missing rfl, fun _ _ => rfl⟩

include hshort

/-- On tables a task is performed if it has what it needs. -/
lemma proceeds_task_ready {db : Database} (h : Ready dir place db files) (task : Task) :
    call.Proceeds dir place files (.task task) (some db) := by
  have hplace := ne_nil_of_resolve h.reached.resolved
  have hpresent : files.isPresent (settingsIn dir).databasePath = true := by
    have hlength := hshort h.reached.prepared.length_lt
    rw [FileTree.Prepared.isPresent_eq (s := settingsIn dir) h.reached.prepared hlength]
    change (files.lookup? (files.databasePlace dir)).isSome = true
    rw [← h.reached.place_eq, h.kept.entry]
    rfl
  have hinUse := h.kept.inUse_whileOpen hplace
  have hreached := h.reached.keeps (h.kept.keeps_whileOpen hplace)
  obtain ⟨input, hrun⟩ :=
    run_task_of_ok (w := call.world files) hplain hpresent h.opening task
  have hworld : call.world files = ⟨files, call.input, call.now⟩ := rfl
  rw [Call.Proceeds, hrun, hworld]
  cases hsupply : task.supply (files.whileOpen place) call.input with
  | error fault =>
      obtain ⟨closed, hready, hclose⟩ := run_closeDatabase
        (w := ⟨files.whileOpen place, input, call.now⟩) hreached hinUse h.schema
      obtain ⟨hcode, hfault⟩ := Task.fault_of_supply hsupply
      have hmissing : ∀ content, ¬ task.Supplied (files.whileOpen place) call.input content := by
        intro content hcontent
        rw [Task.supply_eq_ok_iff.mpr hcontent] at hsupply
        cases hsupply
      dsimp only
      rw [hclose]
      exact ⟨some db, .ready hready, .unsupplied db hmissing hcode hfault, nofun⟩
  | ok content =>
      have hleft := (task.request content).schema_run call.now h.schema
      obtain ⟨closed, hready, hclose⟩ := run_closeDatabase
        (w := ⟨files.whileOpen place, input, call.now⟩) hreached hinUse hleft
      dsimp only
      rw [Task.perform_eq]
      dsimp only [Outcome.map]
      rw [hclose]
      exact ⟨_, .ready hready, .performed db (Task.supply_eq_ok_iff.mp hsupply), nofun⟩

/-- A task is performed on the tables, if there are any. -/
lemma proceeds_task (h : Stage dir place files found) (task : Task) :
    call.Proceeds dir place files (.task task) found := by
  cases h with
  | vacant h =>
      have hnone : files.lookup? (files.databasePlace (settingsIn dir).dataDir) = none := by
        rw [← h.vacant, ← h.place_eq]
        rfl
      exact proceeds_task_of_absent (.vacant h) (isPresent_of_none hnone) task
  | absent h =>
      cases hpresent : files.isPresent (settingsIn dir).databasePath with
      | false => exact proceeds_task_of_absent (.absent h) hpresent task
      | true =>
          obtain ⟨fault, after, hopening, hcode, hsame, habsent⟩ := h.opening
          rw [Call.Proceeds, run_task_of_error (w := call.world files) hplain hpresent hopening]
          exact ⟨none, .absent habsent, .missing hcode, fun _ _ => hsame⟩
  | ready h => exact proceeds_task_ready hplain hshort h task

/-- A call keeps the stages, and answers as it should. -/
theorem steps_run (h : Stage dir place files found)
    (hwords : Invocation.ofWords call.words = .ok ⟨placesIn dir, command⟩) :
    ∃ left,
      call.Steps dir place files command found (call.run files).1 (call.run files).2 left := by
  rw [run_call hwords]
  cases command with
  | init => exact proceeds_init hplain h
  | task task => exact proceeds_task hplain hshort h task

end Simulation

/-! ### Answers -/

section Answers

variable {db : Database} {owner name text : String}

/-- What is got is the content of the row of the script. -/
lemma row_of_get (hdb : db.Schema) (h : (Repository.get owner name db).result = .ok text) :
    ∃ r ∈ db.scripts, r.owner = owner ∧ r.name = name ∧ text = r.content := by
  rw [Repository.get_eq (Repository.checks_of_ok h)] at h
  rcases hfind : db.findScript owner name with f | _ | s
  · rw [hfind] at h
    cases h
  · rw [hfind] at h
    cases h
  · rw [hfind] at h
    obtain ⟨r, hr, hro, hrn, hrs⟩ := Database.shows_of_findScript hdb hfind
    exact ⟨r, hr, hro, hrn, (Except.ok.inj h).symm.trans hrs.content⟩

/-- What is got of the active script is the content of the row with the mark. -/
lemma row_of_getActive (hdb : db.Schema) (h : (Repository.getActive owner db).result = .ok text) :
    ∃ r ∈ db.scripts, r.owner = owner ∧ r.Marked ∧ text = r.content := by
  have hchecks : Repository.checkOwner owner = .ok () := by
    rw [Repository.getActive, Outcome.map] at h
    cases hactive : (Repository.active owner db).result with
    | error e =>
        rw [hactive] at h
        cases h
    | ok s => exact Repository.checks_of_ok hactive
  rw [Repository.getActive, Repository.active_eq hchecks] at h
  rcases hfind : db.findActive owner with f | _ | s
  · rw [hfind] at h
    cases h
  · rw [hfind] at h
    cases h
  · rw [hfind] at h
    obtain ⟨r, hr, hro, hrm, hrs⟩ := Database.shows_of_findActive hdb hfind
    exact ⟨r, hr, hro, hrm, (Except.ok.inj h).symm.trans hrs.content⟩

namespace Call.Simulates

variable {call : Call} {path : String} {whileOpen : FileTree} {command : Command} {task : Task}
  {found left : Option Database} {report : Report}

lemma exitCode_eq (h : call.Simulates path whileOpen command found report left) :
    report.exitCode = 0 ∨ report.exitCode = 1 := by
  cases h with
  | missing code | unmade code | unsupplied db missing code fault_ne => exact .inr code
  | made found => exact .inl rfl
  | @performed task content db supplied =>
      cases ((task.request content).run call.now db).result with
      | error e => exact .inr rfl
      | ok a => exact .inl rfl

/-- A failure leaves the tables. -/
lemma left_eq (h : call.Simulates path whileOpen command found report left)
    (hfound : ∀ db ∈ found, db.Schema) (hne : report.exitCode ≠ 0) : left = found := by
  cases h with
  | missing | unmade | unsupplied => rfl
  | made found => exact absurd rfl hne
  | @performed task content db supplied =>
      cases hresult : ((task.request content).run call.now db).result with
      | error e => rw [Operation.database_of_error (hfound db rfl) hresult]
      | ok a =>
          rw [hresult] at hne
          exact absurd rfl hne

/-- Tables are there once they were made. -/
lemma isSome_iff (h : call.Simulates path whileOpen command found report left) :
    left.isSome ↔ found.isSome ∨ command = .init ∧ report.exitCode = 0 := by
  cases h with
  | unmade code =>
      refine iff_of_false nofun ?_
      rintro (h | ⟨-, h⟩)
      · cases h
      · cases code.symm.trans h
  | made found => exact iff_of_true rfl (.inr ⟨rfl, rfl⟩)
  | missing | unsupplied | performed => simp

/-- Without tables a task fails. -/
lemma exitCode_of_none (h : call.Simulates path whileOpen (.task task) none report left) :
    report.exitCode = 1 := by
  cases h with
  | missing code => exact code

/-- On tables a task ends well exactly if it has what it needs and its method succeeds. -/
lemma exitCode_eq_zero_iff {db : Database}
    (h : call.Simulates path whileOpen (.task task) (some db) report left) :
    report.exitCode = 0 ↔ ∃ content answer, task.Supplied whileOpen call.input content ∧
      ((task.request content).run call.now db).result = .ok answer := by
  cases h with
  | unsupplied db missing code fault_ne =>
      refine iff_of_false (fun h => ?_) fun ⟨content, _, hcontent, _⟩ => missing content hcontent
      cases code.symm.trans h
  | @performed task content db supplied =>
      constructor
      · intro h
        cases hresult : ((task.request content).run call.now db).result with
        | error e =>
            rw [hresult] at h
            cases h
        | ok answer => exact ⟨content, answer, supplied, hresult⟩
      · rintro ⟨content', answer, supplied', hanswer⟩
        obtain rfl := supplied.unique supplied'
        rw [hanswer]
        rfl

/-- A task that has not what it needs fails, and nothing is reported but that the database was
opened. -/
lemma of_unsupplied {db : Database}
    (h : call.Simulates path whileOpen (.task task) (some db) report left)
    (hmissing : ∀ content, ¬ task.Supplied whileOpen call.input content) :
    report.exitCode = 1 ∧ report.events = [.opened path] := by
  cases h with
  | unsupplied db missing code fault_ne => exact ⟨code, rfl⟩
  | performed db supplied => exact absurd supplied (hmissing _)

/-- If the method fails its message is the error. -/
lemma error_of_failure {db : Database} {content : String} {failure : Failure}
    (h : call.Simulates path whileOpen (.task task) (some db) report left)
    (hcontent : task.Supplied whileOpen call.input content)
    (hfailure : ((task.request content).run call.now db).result = .error failure) :
    report.error? = some (failure.message ++ causeLines failure.causes) := by
  cases h with
  | unsupplied db missing code fault_ne => exact absurd hcontent (missing content)
  | @performed task content' db supplied =>
      obtain rfl := hcontent.unique supplied
      rw [hfailure]
      rfl

/-- A task that has what it needs leaves the tables that its method leaves. -/
lemma left_of_supplied {db : Database} {content : String}
    (h : call.Simulates path whileOpen (.task task) (some db) report left)
    (hcontent : task.Supplied whileOpen call.input content) :
    left = some ((task.request content).run call.now db).database := by
  cases h with
  | unsupplied db missing code fault_ne => exact absurd hcontent (missing content)
  | @performed task content' db supplied =>
      obtain rfl := hcontent.unique supplied
      rfl

/-- What is printed after a success is what the task has to say. -/
lemma perform_of_zero {db : Database}
    (h : call.Simulates path whileOpen (.task task) (some db) report left)
    (hzero : report.exitCode = 0) :
    ∃ content, (task.perform call.now content db).result = .ok report.output := by
  cases h with
  | unsupplied db missing code fault_ne => cases code.symm.trans hzero
  | @performed task content db supplied =>
      refine ⟨content, ?_⟩
      rw [Task.perform_eq, Outcome.map]
      cases hresult : ((task.request content).run call.now db).result with
      | error e =>
          rw [hresult] at hzero
          cases hzero
      | ok answer => rfl

end Call.Simulates

end Answers

/-! ### Sequences of calls -/

/-- One of the calls has made the database. -/
def Initialized (dir : String) (calls : List Call) (start : FileTree) : Prop :=
  ∃ before init after, calls = before ++ init :: after ∧
    Invocation.ofWords init.words = .ok ⟨placesIn dir, .init⟩ ∧
    (init.run (runAll before start).2).1.exitCode = 0

section Sequences

variable {dir : String} {place : Location} {files : FileTree} {call : Call} {command : Command}
  {found : Option Database}

lemma initialized_cons {rest : List Call} {start : FileTree} :
    Initialized dir (call :: rest) start ↔
      Invocation.ofWords call.words = .ok ⟨placesIn dir, .init⟩ ∧ (call.run start).1.exitCode = 0 ∨
        Initialized dir rest (call.run start).2 := by
  constructor
  · rintro ⟨before, init, after, hcalls, hwords, hzero⟩
    cases before with
    | nil =>
        obtain ⟨rfl, rfl⟩ := List.cons.inj hcalls
        exact .inl ⟨hwords, hzero⟩
    | cons first before =>
        obtain ⟨rfl, rfl⟩ := List.cons.inj hcalls
        exact .inr ⟨before, init, after, rfl, hwords, hzero⟩
  · rintro (⟨hwords, hzero⟩ | ⟨before, init, after, rfl, hwords, hzero⟩)
    · exact ⟨[], call, rest, rfl, hwords, hzero⟩
    · exact ⟨call :: before, init, after, rfl, hwords, hzero⟩

variable (hplain : Locator.ofText (settingsIn dir).databasePath
  = .ok (.ofPath (settingsIn dir).databasePath))
  (hshort : (bytes dir).length < Path.lengthBound →
    (bytes (settingsIn dir).databasePath).length < Path.lengthBound)

include hplain hshort

/-- Under every sequence of calls the files are at a stage, with tables exactly if there were tables
before or one of the calls has made the database. -/
theorem stage_runAll (h : Stage dir place files found) {calls : List Call}
    (hcalls : ∀ call ∈ calls, ∃ command,
      Invocation.ofWords call.words = .ok ⟨placesIn dir, command⟩) :
    ∃ left, Stage dir place (runAll calls files).2 left ∧
      (left.isSome ↔ found.isSome ∨ Initialized dir calls files) := by
  -- The stage is what one call hands on to the next.
  induction calls generalizing files found with
  | nil =>
      refine ⟨found, h, ?_⟩
      simp [Initialized]
  | cons call rest ih =>
      obtain ⟨command, hwords⟩ := hcalls call List.mem_cons_self
      obtain ⟨mid, hsteps⟩ := steps_run hplain hshort h hwords
      obtain ⟨left, hleft, hiff⟩ := ih hsteps.stage fun c hc => hcalls c (List.mem_cons_of_mem _ hc)
      have hinit : command = .init ↔
          Invocation.ofWords call.words = .ok ⟨placesIn dir, .init⟩ := by
        rw [hwords, Except.ok.injEq, Invocation.mk.injEq]
        exact ⟨fun h => ⟨rfl, h⟩, And.right⟩
      refine ⟨left, hleft, ?_⟩
      rw [hiff, initialized_cons, hsteps.simulates.isSome_iff, hinit, or_assoc]

end Sequences

/-- A call does what its method does on the tables of the database at a place. -/
structure Call.Simulated (call : Call) (path : String) (place : Location) (command : Command)
    (files : FileTree) (report : Report) (after : FileTree) : Prop where
  /-- The report and the tables that are left are those of one of the cases. -/
  simulates : call.Simulates path (files.whileOpen place) command (files.tablesAt place) report
    (after.tablesAt place)
  /-- The exit code is 0 or 1. -/
  exitCode : report.exitCode = 0 ∨ report.exitCode = 1
  /-- A failure leaves the tables as they were. -/
  failed : report.exitCode ≠ 0 → after.tablesAt place = files.tablesAt place
  /-- Without tables a task fails, and makes no database. -/
  missing : ∀ task, command = .task task → files.tablesAt place = none →
    report.exitCode = 1 ∧ after.lookup? place = files.lookup? place
  /-- On tables a task ends well exactly if it has what it needs and its method succeeds. -/
  succeeded : ∀ task db, command = .task task → files.tablesAt place = some db →
    (report.exitCode = 0 ↔ ∃ content answer,
      task.Supplied (files.whileOpen place) call.input content ∧
        ((task.request content).run call.now db).result = .ok answer)
  /-- A task that has not what it needs fails before its method is called. -/
  unsupplied : ∀ task db, command = .task task → files.tablesAt place = some db →
    (∀ content, ¬ task.Supplied (files.whileOpen place) call.input content) →
    report.exitCode = 1 ∧ report.events = [.opened path]
  /-- A task that has what it needs leaves what its method leaves. -/
  left : ∀ task db content, command = .task task → files.tablesAt place = some db →
    task.Supplied (files.whileOpen place) call.input content →
    after.tablesAt place = some ((task.request content).run call.now db).database
  /-- If the method fails its message is the error. -/
  error : ∀ task db content failure, command = .task task → files.tablesAt place = some db →
    task.Supplied (files.whileOpen place) call.input content →
    ((task.request content).run call.now db).result = .error failure →
    report.error? = some (failure.message ++ causeLines failure.causes)
  /-- The content of a script is printed as it is stored. -/
  got : ∀ owner name, command = .task (.get owner name) → report.exitCode = 0 →
    ∃ db r, files.tablesAt place = some db ∧ r ∈ db.scripts ∧ r.owner = owner ∧ r.name = name ∧
      report.output = r.content
  /-- So is that of the active script. -/
  active : ∀ owner, command = .task (.active owner false) → report.exitCode = 0 →
    ∃ db r, files.tablesAt place = some db ∧ r ∈ db.scripts ∧ r.owner = owner ∧ r.Marked ∧
      report.output = r.content

/-- All this follows from the case that a call comes to. -/
lemma Call.Steps.simulated {call : Call} {dir : String} {place : Location} {files after : FileTree}
    {command : Command} {found left : Option Database} {report : Report}
    (h : call.Steps dir place files command found report after left)
    (hstage : Stage dir place files found) :
    call.Simulated (settingsIn dir).databasePath place command files report after := by
  have hfound := hstage.tablesAt_eq
  have hleft := h.stage.tablesAt_eq
  have hsimulates := h.simulates
  have hschema := hstage.schema
  have hperform : ∀ task, command = .task task → report.exitCode = 0 →
      ∃ db content, files.tablesAt place = some db ∧ db.Schema ∧
        (task.perform call.now content db).result = .ok report.output := by
    rintro task rfl hzero
    rw [hfound]
    cases found with
    | none => cases hzero.symm.trans hsimulates.exitCode_of_none
    | some db =>
        obtain ⟨content, hcontent⟩ := hsimulates.perform_of_zero hzero
        exact ⟨db, content, rfl, hschema db rfl, hcontent⟩
  constructor
  case simulates =>
    rw [hfound, hleft]
    exact hsimulates
  case exitCode => exact hsimulates.exitCode_eq
  case failed =>
    intro hne
    rw [hfound, hleft]
    exact hsimulates.left_eq hschema hne
  case missing =>
    rintro task rfl hnone
    obtain rfl : found = none := hfound.symm.trans hnone
    exact ⟨hsimulates.exitCode_of_none, h.same rfl nofun⟩
  case succeeded =>
    rintro task db rfl hdb
    obtain rfl : found = some db := hfound.symm.trans hdb
    exact hsimulates.exitCode_eq_zero_iff
  case unsupplied =>
    rintro task db rfl hdb hmissing
    obtain rfl : found = some db := hfound.symm.trans hdb
    exact hsimulates.of_unsupplied hmissing
  case left =>
    rintro task db content rfl hdb hcontent
    obtain rfl : found = some db := hfound.symm.trans hdb
    rw [hleft]
    exact hsimulates.left_of_supplied hcontent
  case error =>
    rintro task db content failure rfl hdb hcontent hfailure
    obtain rfl : found = some db := hfound.symm.trans hdb
    exact hsimulates.error_of_failure hcontent hfailure
  case got =>
    intro owner name hcommand hzero
    obtain ⟨db, content, hdb, hs, hresult⟩ := hperform _ hcommand hzero
    obtain ⟨r, hr, ho, hn, htext⟩ := row_of_get hs hresult
    exact ⟨db, r, hdb, hr, ho, hn, htext⟩
  case active =>
    intro owner hcommand hzero
    obtain ⟨db, content, hdb, hs, hresult⟩ := hperform _ hcommand hzero
    obtain ⟨r, hr, ho, hm, htext⟩ := row_of_getActive hs hresult
    exact ⟨db, r, hdb, hr, ho, hm, htext⟩

/-- **The command line simulates the repository.** Let the path of the database not read as a URI,
and not be too long unless that of the data directory is, and let nothing be in its place at the
start. After any calls that are accepted with this data directory and without a settings file, the
tables are made exactly if one of the calls has made the database, and the next such call does what
its method does on them. -/
theorem simulated_runAll {dir : String} {start : FileTree}
    (hplain : (bytes "file:").isPrefixOf (bytes (settingsIn dir).databasePath) = false)
    (hshort : (bytes dir).length < Path.lengthBound →
      (bytes (settingsIn dir).databasePath).length < Path.lengthBound)
    (hstands : start.Stands start.directory)
    (hnone : start.lookup? (start.databasePlace dir) = none) {calls : List Call}
    (hcalls : ∀ call ∈ calls, ∃ command,
      Invocation.ofWords call.words = .ok ⟨placesIn dir, command⟩)
    {call : Call} {command : Command}
    (hwords : Invocation.ofWords call.words = .ok ⟨placesIn dir, command⟩) :
    let place := start.databasePlace dir
    let files := (runAll calls start).2
    ((files.tablesAt place).isSome ↔ Initialized dir calls start) ∧
      call.Simulated (settingsIn dir).databasePath place command files (call.run files).1
        (call.run files).2 := by
  intro place files
  have hlocator : Locator.ofText (settingsIn dir).databasePath
      = .ok (.ofPath (settingsIn dir).databasePath) := by
    rw [Locator.ofText, hplain]
    rfl
  have hstart : Stage dir place start none := .vacant ⟨hstands, rfl, hnone⟩
  obtain ⟨found, hstage, hiff⟩ := stage_runAll hlocator hshort hstart hcalls
  obtain ⟨left, hsteps⟩ := steps_run hlocator hshort hstage hwords
  refine ⟨?_, hsteps.simulated hstage⟩
  rw [hstage.tablesAt_eq, hiff]
  simp

/-- What is got of a script that was stored in a database that was made. -/
theorem simulated_runAll_got :
    let calls : List Call := [⟨["--data-dir", "box", "init"], .empty, .epoch⟩,
      ⟨["script", "put", "ann", "day", "--data-dir", "box"], "keep;".toUTF8, .epoch⟩]
    let call : Call := ⟨["script", "get", "ann", "day", "--data-dir", "box"], .empty, .epoch⟩
    let place := FileTree.empty.databasePlace "box"
    let files := (runAll calls .empty).2
    let report := (call.run files).1
    Initialized "box" calls .empty ∧ (files.tablesAt place).isSome ∧ report.exitCode = 0 ∧
      report.output = "keep;" ∧
      ∃ db r, files.tablesAt place = some db ∧ r ∈ db.scripts ∧ r.owner = "ann" ∧
        r.name = "day" ∧ report.output = r.content := by
  intro calls call place files report
  have hplain : (bytes "file:").isPrefixOf (bytes (settingsIn "box").databasePath) = false := by
    decide +kernel
  have hshort : (bytes "box").length < Path.lengthBound →
      (bytes (settingsIn "box").databasePath).length < Path.lengthBound := by decide +kernel
  have hnone : FileTree.empty.lookup? place = none := by decide +kernel
  have hcalls : ∀ call ∈ calls, ∃ command,
      Invocation.ofWords call.words = .ok ⟨placesIn "box", command⟩ := by
    intro call hcall
    rcases List.mem_cons.mp hcall with rfl | hcall
    · exact ⟨.init, by decide +kernel⟩
    · rw [List.mem_singleton.mp hcall]
      exact ⟨.task (.put "ann" "day" none), by decide +kernel⟩
  have hwords : Invocation.ofWords call.words =
      .ok ⟨placesIn "box", .task (.get "ann" "day")⟩ := by decide +kernel
  have hmade : Initialized "box" calls .empty :=
    ⟨[], _, _, rfl, by decide +kernel, by decide +kernel⟩
  have hzero : report.exitCode = 0 := by decide +kernel
  have houtput : report.output = "keep;" := by decide +kernel
  obtain ⟨hiff, hsimulated⟩ :=
    simulated_runAll hplain hshort (.root .empty) hnone hcalls hwords
  exact ⟨hmade, hiff.mpr hmade, hzero, houtput, hsimulated.got "ann" "day" rfl hzero⟩

/-- A data directory that reads as a URI names something else. Here the database is made in memory
and is gone at the end: the first task finds none, although the database was made and the method
would succeed on it. -/
theorem not_simulated_of_uri :
    let words := ["--data-dir", "file:box?mode=memory&as="]
    let init : Call := ⟨words ++ ["init"], .empty, .epoch⟩
    let list : Call := ⟨words ++ ["script", "list", "ann"], .empty, .epoch⟩
    let (made, files) := init.run .empty
    let report := (list.run files).1
    made.exitCode = 0 ∧
      made.output = "Initialized database at file:box?mode=memory&as=/sievekeeper.db\n" ∧
      Invocation.ofWords list.words =
        .ok ⟨placesIn "file:box?mode=memory&as=", .task (.list "ann" false)⟩ ∧
      ((Task.list "ann" false).perform .epoch "" .empty).result = .ok "No scripts found.\n" ∧
      report.exitCode = 1 ∧
      report.error? = some ("Database not found at file:box?mode=memory&as=/sievekeeper.db. " ++
        "Run 'sievekeeper init' first.") := by
  decide +kernel

end FilterStore.CommandLine
