import FilterStore.Proofs.CommandLine.Course
import FilterStore.Proofs.CommandLine.Sentence

/-!
What the command line prints is true.

* **Steady files.** Files in which every database is steady stay so under every call, whatever it
  asks for and at every time on the clock (`steady_runAll`). Files without databases are steady.
* **Truth.** A call that ends with exit code 0 has performed its task on the tables that stood in
  the files and has left its tables there; the sentence that it printed holds of both, except for
  the activation of a script without a name (`holds_iff_runAll`).
-/

namespace FilterStore

/-! ### Steady files -/

/-- Every database in the files is steady. -/
def FileTree.Steady (t : FileTree) : Prop :=
  ∀ place, ∀ db ∈ t.tablesAt place, db.Steady

namespace FileTree

variable {t after : FileTree}

lemma steady_empty : empty.Steady := by
  intro place db hdb
  rw [tablesAt, lookup?] at hdb
  split_ifs at hdb
  · cases hdb
  · cases hdb

lemma Steady.of_derives (h : t.Steady) (hafter : t.Derives after) : after.Steady := by
  intro place db hdb
  rcases hafter place db hdb with rfl | hdb
  · exact Database.steady_empty
  · exact h place db hdb

end FileTree

namespace CommandLine

open FileTree

variable {call : Call} {files : FileTree} {s : Settings} {task : Task} {c : Connection Handle}
  {content : String} {ready : World}

/-- Tables that are found in steady files, or in memory, are steady. -/
lemma Connection.Sits.steady (hsits : c.Sits files) (h : files.Steady) : c.database.Steady := by
  cases hplace : c.handle.place? with
  | none =>
      rw [hsits.memory hplace]
      exact Database.steady_empty
  | some place => exact h place _ (hsits.tables place hplace)

lemma Task.steady_performAs {db : Database} (hdb : db.Steady) (writing : Writing) (now : Instant)
    (content : String) (task : Task) : (task.performAs writing now content db).database.Steady := by
  rw [performAs]
  split_ifs
  · exact steady_perform hdb now content task
  · exact hdb

/-- The tables that a call works on are steady if the files are. -/
lemma Call.Asks.steady (h : call.Asks files s task c content ready) (hfiles : files.Steady) :
    c.database.Steady :=
  h.sits.2.steady (hfiles.of_derives h.sits.1.files)

theorem steady_run (h : files.Steady) (call : Call) : (call.run files).2.Steady := by
  have hcourse := course_run call files
  generalize (call.run files).1 = report at hcourse
  generalize (call.run files).2 = after at hcourse ⊢
  cases hcourse with
  | stopped words => exact h
  | failed derives => exact h.of_derives derives
  | made words derives => exact h.of_derives derives
  | performed asks closed =>
      intro place left hleft
      rcases closed.databases place left hleft with ⟨rfl, -⟩ | rfl | hready
      · exact Task.steady_performAs (asks.steady h) _ _ _ _
      · exact Database.steady_empty
      · exact h.of_derives asks.sits.1.files place left hready

theorem steady_runAll (h : files.Steady) (calls : List Call) : (runAll calls files).2.Steady := by
  induction calls generalizing files with
  | nil => exact h
  | cons call rest ih => exact ih (steady_run h call)

/-! ### Truth -/

/-- The tables on which a call works stood in the files before, or have no rows. -/
lemma Call.Asks.found (h : call.Asks files s task c content ready) :
    c.database = .empty ∨ ∃ place ∈ c.handle.place?, files.tablesAt place = some c.database := by
  obtain ⟨hderives, hsits⟩ := h.sits
  cases hplace : c.handle.place? with
  | none => exact .inl (hsits.memory hplace)
  | some place =>
      refine (hderives.files place _ (hsits.tables place hplace)).imp_right fun hfound => ?_
      exact ⟨place, rfl, hfound⟩

/-- A call that performed its task has left the tables of the outcome at the place of the
database. -/
lemma Call.Asks.left (h : call.Asks files s task c content ready) (hfiles : files.Steady)
    {after : FileTree}
    (hclosed : Closed c.handle (task.performAs c.writing call.now content c.database).database
      c.writing ready.files after) {place : Location} (hplace : place ∈ c.handle.place?) :
    after.tablesAt place =
      some (task.performAs c.writing call.now content c.database).database := by
  have htables := h.sits.2.tables place hplace
  by_cases hw : c.writing = .allowed
  · exact hclosed.written hw place hplace (by rw [htables]; rfl)
  · rw [hclosed.unwritten hw, Task.database_of_not_allowed (h.steady hfiles).schema hw]
    exact htables

lemma CommandFault.exitCode_ne_zero (fault : CommandFault) : fault.exitCode ≠ 0 := by
  cases fault with
  | waitTooLong => exact (by decide : (101 : UInt32) ≠ 0)
  | _ => exact (by decide : (1 : UInt32) ≠ 0)

/-- **What is printed is true.** After any calls, on files whose databases were steady before, a
call for a task that ends with exit code 0 has worked on the tables that stood at the place of its
database, or on none, and has left the tables of the outcome there. It printed the sentence of the
task, and the sentence holds of the tables that were found and of those that were left, exactly if
the task was not to activate a script without a name. -/
theorem holds_iff_runAll {start : FileTree} (hstart : start.Steady) (calls : List Call)
    {call : Call} {places : Places} {task : Task}
    (hwords : Invocation.ofWords call.words = .ok ⟨places, .task task⟩)
    (hzero : (call.run (runAll calls start).2).1.exitCode = 0) :
    let files := (runAll calls start).2
    ∃ s c content ready, call.Asks files s task c content ready ∧
      let left := (task.performAs c.writing call.now content c.database).database
      (c.database = .empty ∨ ∃ place ∈ c.handle.place?, files.tablesAt place = some c.database) ∧
      (∀ place ∈ c.handle.place?, (call.run files).2.tablesAt place = some left) ∧
      (∀ sentence ∈ task.sentence? content, (call.run files).1.output = sentence) ∧
      (task.Holds content c.database left ↔ ¬ task.ActivatesNothing) := by
  intro files
  have hfiles : files.Steady := steady_runAll hstart calls
  have hcourse := course_run call files
  generalize (call.run files).1 = report at hcourse hzero ⊢
  generalize (call.run files).2 = after at hcourse ⊢
  cases hcourse with
  | stopped words => cases hwords.symm.trans words
  | failed derives => exact absurd hzero (CommandFault.exitCode_ne_zero _)
  | made words derives => cases hwords.symm.trans words
  | @performed s' task' c content ready after asks closed =>
      have htask : task' = task := by
        obtain ⟨places', -, -, words, -⟩ := asks.reached
        cases hwords.symm.trans words
        rfl
      subst htask
      have hsteady := asks.steady hfiles
      cases hresult : (task'.performAs c.writing call.now content c.database).result with
      | error e =>
          rw [hresult] at hzero
          exact absurd hzero (CommandFault.exitCode_ne_zero (.failure e))
      | ok output =>
          have hsame := Task.performAs_of_ok hresult
          obtain ⟨hsentence, htruth⟩ := Task.holds_iff_of_perform hsteady (hsame ▸ hresult)
          rw [← hsame] at htruth
          exact ⟨s', c, content, ready, asks, asks.found, fun place hplace =>
            asks.left hfiles closed hplace, hsentence, htruth⟩

/-- A script that is stored in a database that was made, and then activated. -/
theorem holds_iff_runAll_activated :
    let calls : List Call := [⟨["init"], .empty, .epoch⟩,
      ⟨["script", "put", "ann", "day"], "keep;".toUTF8, .epoch⟩]
    let call : Call := ⟨["script", "activate", "ann", "day"], .empty, .epoch⟩
    let files := (runAll calls .empty).2
    let task : Task := .activate "ann" "day"
    FileTree.empty.Steady ∧ Invocation.ofWords call.words = .ok ⟨⟨none, none⟩, .task task⟩ ∧
      (call.run files).1.exitCode = 0 ∧
      (call.run files).1.output = "Activated script 'day' for ann\n" ∧
      ∃ s c content ready, call.Asks files s task c content ready ∧
        task.Holds content c.database
          (task.performAs c.writing call.now content c.database).database := by
  intro calls call files task
  have hwords : Invocation.ofWords call.words = .ok ⟨⟨none, none⟩, .task task⟩ := by
    decide +kernel
  have hzero : (call.run files).1.exitCode = 0 := by decide +kernel
  obtain ⟨s, c, content, ready, asks, -, -, hsentence, htruth⟩ :=
    holds_iff_runAll FileTree.steady_empty calls hwords hzero
  have hnamed : ¬ task.ActivatesNothing := by
    change "day" ≠ ""
    decide
  exact ⟨FileTree.steady_empty, hwords, hzero, hsentence _ rfl, s, c, content, ready, asks,
    htruth.mpr hnamed⟩

/-- To activate a script without a name succeeds, says so, and activates nothing: the database that
is left has no such script and no active one. -/
theorem not_holds_activated_without_name :
    let calls : List Call := [⟨["init"], .empty, .epoch⟩,
      ⟨["script", "put", "ann", "day"], "keep;".toUTF8, .epoch⟩]
    let call : Call := ⟨["script", "activate", "ann", ""], .empty, .epoch⟩
    let (report, after) := call.run (runAll calls .empty).2
    let place := [Text.bytes "sievekeeper.db", Text.bytes "data"]
    report.exitCode = 0 ∧ report.output = "Activated script '' for ann\n" ∧
      after.tablesAt place = some ⟨[⟨"ann", "day", "keep;", 5, 0, none⟩], []⟩ := by
  decide +kernel

end CommandLine

end FilterStore
