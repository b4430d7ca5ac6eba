import FilterStore.Proofs.Repository.Scope

/-!
Statements in one transaction against statements one by one.

* **Atomic statements.** A statement that fails leaves the database as it was
  (`StoreStep.atomic_act`), so it makes no difference whether it runs in a transaction of its own
  (`transaction_act`). A statement keeps the rules of the tables, rows added as they are included
  (`StoreStep.schema_act`).
* **Runs.** `Completes` says that steps succeed one after the other, with which answers and what
  database; `Breaks` says that all steps before some step succeed, and that one fails. One of both
  is the case (`completes_or_breaks`), and each settles what the runs inside a transaction, as a
  batch and one by one give.
* **Batches.** A batch is the transaction of its steps, the one in which every method runs: it ends
  as the transaction does and leaves what the transaction leaves (`runBatch_of_ok`,
  `runBatch_of_error`). It gives the answers of the run one by one. It keeps the writes if all steps
  succeed and the caller has no failure, and otherwise takes back all of them
  (`runBatch_against_runEach`).
-/

namespace FilterStore

/-! ### Atomic statements -/

namespace Action

variable {α β : Type}

/-- The action leaves the database as it was if it fails. -/
def Atomic (act : Action α) : Prop :=
  ∀ (db after : Database) (e : Failure), act db = .error e after → after = db

lemma atomic_query (read : Database → Except StorageFault α) : (query read).Atomic := by
  intro db after e h
  rw [query] at h
  cases hread : read db with
  | ok a =>
      rw [hread] at h
      cases h
  | error f =>
      rw [hread] at h
      cases h
      rfl

/-- A look at the database itself does not fail. -/
lemma atomic_get : (get : Action Database).Atomic := by
  intro db after e h
  cases h

lemma atomic_deleteScript (owner name : String) : (deleteScript owner name).Atomic := by
  intro db after e h
  rw [deleteScript_run] at h
  cases h

lemma atomic_deleteLimit (key : QuotaKey) : (deleteLimit key).Atomic := by
  intro db after e h
  rw [deleteLimit_run] at h
  cases h

lemma atomic_change (write : Database → Except Failure Database) : (change write).Atomic := by
  intro db after e h
  cases hwrite : write db with
  | ok written =>
      rw [change_of_ok hwrite] at h
      cases h
  | error failure =>
      rw [change_of_error hwrite] at h
      cases h
      rfl

lemma Atomic.map {act : Action α} (h : act.Atomic) (f : α → β) : (f <$> act : Action β).Atomic := by
  intro db after e hmap
  rw [map_eq_pure_bind] at hmap
  cases hact : act db with
  | ok a middle =>
      rw [run_bind_of_ok hact] at hmap
      cases hmap
  | error failure middle =>
      rw [run_bind_of_error hact] at hmap
      cases hmap
      exact h db _ _ hact

/-- For an atomic action a transaction makes no difference. -/
lemma Atomic.transaction_eq {act : Action α} (h : act.Atomic) (db : Database) :
    transaction act db = act db := by
  cases hact : act db with
  | ok a after => exact transaction_of_ok hact
  | error e after => rw [transaction_of_error hact, h db after e hact]

/-- Another form of the answer makes no difference to what is left. -/
lemma left_map (f : α → β) (act : Action α) (db : Database) :
    left ((f <$> act : Action β) db) = left (act db) := by
  rw [map_eq_pure_bind]
  cases hact : act db with
  | ok a after =>
      rw [run_bind_of_ok hact]
      rfl
  | error e after =>
      rw [run_bind_of_error hact]
      rfl

/-- Where another kind of failure is reported, success stays what it is. -/
lemma ok_of_mapError {ε ε' : Type} {x : Except ε α} {f : ε → ε'} {a : α}
    (h : x.mapError f = .ok a) : x = .ok a := by
  cases x with
  | error e => cases h
  | ok b =>
      cases h
      rfl

/-- A change keeps the rules of the tables if what it writes does. -/
lemma schema_change {write : Database → Except Failure Database} {db : Database} (hdb : db.Schema)
    (h : ∀ after, write db = .ok after → after.Schema) : (left (change write db)).Schema := by
  cases hwrite : write db with
  | ok after =>
      rw [left_change_of_ok hwrite]
      exact h after hwrite
  | error e =>
      rw [left_change_of_error hwrite]
      exact hdb

end Action

namespace StoreStep

open FilterStore.Action

/-- A statement that fails undoes only itself. -/
theorem atomic_act (step : StoreStep) : step.act.Atomic := by
  cases step with
  | findAll owner => exact (atomic_query _).map _
  | findActive owner => exact (atomic_query _).map _
  | findScript owner name => exact (atomic_query _).map _
  | upsertScript s => exact (atomic_change _).map _
  | deleteScript owner name => exact (atomic_deleteScript owner name).map _
  | findLimit key => exact (atomic_query _).map _
  | upsertLimit key limit => exact (atomic_change _).map _
  | deleteLimit key => exact (atomic_deleteLimit key).map _
  | insertScript row => exact (atomic_change _).map _
  | insertQuota row => exact (atomic_change _).map _
  | dump => exact atomic_get.map _

lemma transaction_act (step : StoreStep) (db : Database) : transaction step.act db = step.act db :=
  step.atomic_act.transaction_eq db

/-- A statement keeps the rules of the tables. -/
theorem schema_act (step : StoreStep) {db : Database} (hdb : db.Schema) :
    (left (step.act db)).Schema := by
  cases step with
  | findAll owner => exact ((About.findAll.map _).edits db).schema hdb
  | findActive owner => exact ((About.findActive.map _).edits db).schema hdb
  | findScript owner name => exact (((About.findScript name).map _).edits db).schema hdb
  | upsertScript s => exact (((About.upsertScript rfl).map _).edits db).schema hdb
  | deleteScript owner name => exact (((About.deleteScript name).map _).edits db).schema hdb
  | findLimit key => exact (((About.findLimit (.inl rfl)).map _).edits db).schema hdb
  | upsertLimit key limit => exact (((About.upsertLimit rfl limit).map _).edits db).schema hdb
  | deleteLimit key => exact (((About.deleteLimit rfl).map _).edits db).schema hdb
  | insertScript row =>
      show (left (((fun _ => StoreAnswer.done) <$> Action.insertScript row) db)).Schema
      rw [left_map]
      refine schema_change hdb fun after hafter => ?_
      exact hdb.insertScript (ok_of_mapError hafter)
  | insertQuota row =>
      show (left (((fun _ => StoreAnswer.done) <$> Action.insertQuota row) db)).Schema
      rw [left_map]
      refine schema_change hdb fun after hafter => ?_
      exact hdb.insertQuota (ok_of_mapError hafter)
  | dump => exact hdb

end StoreStep

/-! ### Runs -/

/-- The steps succeed one after the other, each on what the earlier ones left. -/
inductive Completes : Database → List StoreStep → List StoreAnswer → Database → Prop
  /-- No step. -/
  | done (db : Database) : Completes db [] [] db
  /-- A step and further ones. -/
  | step {db middle after : Database} {step : StoreStep} {rest : List StoreStep}
      {answer : StoreAnswer} {answers : List StoreAnswer} (first : step.act db = .ok answer middle)
      (others : Completes middle rest answers after) :
      Completes db (step :: rest) (answer :: answers) after

/-- The steps before some step succeed, and this step fails and leaves what they wrote. -/
def Breaks (db : Database) (steps : List StoreStep) (answers : List StoreAnswer) (e : Failure)
    (after : Database) : Prop :=
  ∃ before step rest, steps = before ++ step :: rest ∧ Completes db before answers after ∧
    step.act after = .error e after

/-- Steps succeed all together, or there is a first one that fails. -/
theorem completes_or_breaks (steps : List StoreStep) (db : Database) :
    (∃ answers after, Completes db steps answers after) ∨
      ∃ answers e after, Breaks db steps answers e after := by
  induction steps generalizing db with
  | nil => exact .inl ⟨[], db, .done db⟩
  | cons step rest ih =>
      cases hstep : step.act db with
      | error e after =>
          obtain rfl := step.atomic_act _ _ _ hstep
          exact .inr ⟨[], e, after, [], step, rest, rfl, .done after, hstep⟩
      | ok answer middle =>
          rcases ih middle with ⟨answers, after, hrest⟩ | ⟨answers, e, after, hrest⟩
          · exact .inl ⟨answer :: answers, after, .step hstep hrest⟩
          · obtain ⟨before, failing, later, rfl, hbefore, hfails⟩ := hrest
            exact .inr ⟨answer :: answers, e, after, step :: before, failing, later, rfl,
              .step hstep hbefore, hfails⟩

section Runs

variable {db after : Database} {steps before : List StoreStep} {answers : List StoreAnswer}
  {e : Failure}

/-- Inside a transaction further steps run on what the steps before left. -/
lemma Completes.runSteps_append (h : Completes db before answers after) (final : Option Failure)
    (rest : List StoreStep) :
    runSteps final (before ++ rest) db =
      (answers.map .ok ++ (runSteps final rest after).1, (runSteps final rest after).2) := by
  induction h with
  | done db => rfl
  | step first others ih => simp only [List.cons_append, runSteps, first, ih, List.map_cons]

/-- So they do one by one. -/
lemma Completes.runEach_append (h : Completes db before answers after) (rest : List StoreStep) :
    runEach (before ++ rest) db =
      (answers.map .ok ++ (runEach rest after).1, (runEach rest after).2) := by
  induction h with
  | done db => rfl
  | step first others ih =>
      simp only [List.cons_append, runEach, StoreStep.transaction_act, first, ih, List.map_cons]

lemma Completes.runSteps_eq (h : Completes db steps answers after) (final : Option Failure) :
    runSteps final steps db =
      (answers.map .ok, final.elim (.ok () after) fun e => .error e after) := by
  have hrun := h.runSteps_append final []
  rw [List.append_nil] at hrun
  rw [hrun]
  cases final with
  | none => rw [runSteps, List.append_nil, Option.elim_none]
  | some e => rw [runSteps, List.append_nil, Option.elim_some]

lemma Completes.runEach_eq (h : Completes db steps answers after) :
    runEach steps db = (answers.map .ok, after) := by
  have hrun := h.runEach_append []
  rwa [List.append_nil, runEach, List.append_nil] at hrun

/-- The caller's failure is not reached behind a step that fails. -/
lemma Breaks.runSteps_eq (h : Breaks db steps answers e after) (final : Option Failure) :
    runSteps final steps db = (answers.map .ok ++ [.error e], .error e after) := by
  obtain ⟨before, step, rest, rfl, hbefore, hfails⟩ := h
  rw [hbefore.runSteps_append]
  simp only [runSteps, hfails]

lemma Breaks.runEach_eq (h : Breaks db steps answers e after) :
    runEach steps db = (answers.map .ok ++ [.error e], after) := by
  obtain ⟨before, step, rest, rfl, hbefore, hfails⟩ := h
  rw [hbefore.runEach_append]
  simp only [runEach, StoreStep.transaction_act, hfails]

/-- A batch whose steps succeed keeps what they write. -/
lemma runBatch_of_ok {final : Option Failure} {told : List StepResult}
    (h : runSteps final steps db = (told, .ok () after)) :
    runBatch steps final db = ⟨told, .ok (), after⟩ := by
  have hact : stepsAction steps final db = .ok () after := by rw [stepsAction, h]
  simp only [runBatch, transaction_of_ok hact, h]

/-- A batch that fails takes back what its steps wrote, and still tells their answers. -/
lemma runBatch_of_error {final : Option Failure} {told : List StepResult}
    (h : runSteps final steps db = (told, .error e after)) :
    runBatch steps final db = ⟨told, .error e, db⟩ := by
  have hact : stepsAction steps final db = .error e after := by rw [stepsAction, h]
  simp only [runBatch, transaction_of_error hact, h]

lemma Completes.runBatch_eq (h : Completes db steps answers after) (final : Option Failure) :
    runBatch steps final db =
      final.elim ⟨answers.map .ok, .ok (), after⟩ fun e => ⟨answers.map .ok, .error e, db⟩ := by
  cases final with
  | none => exact runBatch_of_ok (h.runSteps_eq none)
  | some e => exact runBatch_of_error (h.runSteps_eq (some e))

lemma Breaks.runBatch_eq (h : Breaks db steps answers e after) (final : Option Failure) :
    runBatch steps final db = ⟨answers.map .ok ++ [.error e], .error e, db⟩ :=
  runBatch_of_error (h.runSteps_eq final)

end Runs

/-! ### Batches -/

lemma schema_runSteps (final : Option Failure) (steps : List StoreStep) {db : Database}
    (hdb : db.Schema) : (Action.left (runSteps final steps db).2).Schema := by
  induction steps generalizing db with
  | nil => cases final <;> exact hdb
  | cons step rest ih =>
      have hstep := step.schema_act hdb
      rw [runSteps]
      cases hact : step.act db with
      | ok answer middle =>
          rw [hact] at hstep
          exact ih hstep
      | error e after =>
          rw [hact] at hstep
          exact hstep

/-- A batch keeps the rules of the tables. -/
lemma schema_runBatch (steps : List StoreStep) (final : Option Failure) {db : Database}
    (hdb : db.Schema) : (runBatch steps final db).database.Schema := by
  have hsteps := schema_runSteps final steps hdb
  rcases hrun : runSteps final steps db with ⟨answers, u | e⟩
  · rw [hrun] at hsteps
    rw [runBatch_of_ok hrun]
    exact hsteps
  · rw [runBatch_of_error hrun]
    exact hdb

/-- Every request keeps the rules of the tables. -/
theorem Request.schema_run (request : Request) (now : Instant) {db : Database} (hdb : db.Schema) :
    (request.run now db).database.Schema := by
  cases request with
  | operation op => exact op.schema_run now hdb
  | statement step =>
      have hstep := step.schema_act hdb
      rw [Request.run, step.transaction_act]
      cases hact : step.act db with
      | ok answer after =>
          rw [hact] at hstep
          exact hstep
      | error e after =>
          rw [hact] at hstep
          exact hstep
  | batch steps final => exact schema_runBatch steps final hdb
  | setUp => exact hdb
  | reopen path => exact hdb

/-- A batch that fails changes nothing. -/
lemma database_of_refused {steps : List StoreStep} {final : Option Failure} {db : Database}
    {e : Failure} (h : (runBatch steps final db).result = .error e) :
    (runBatch steps final db).database = db := by
  rcases hrun : runSteps final steps db with ⟨answers, u | failure⟩
  · rw [runBatch_of_ok hrun] at h
    cases h
  · rw [runBatch_of_error hrun]

/-- After a batch that fails a session goes on as if the batch had not been there. -/
lemma runSession_of_refused {steps : List StoreStep} {final : Option Failure} {db : Database}
    {e : Failure} (h : (runBatch steps final db).result = .error e) (now : Instant)
    (rest : List (Instant × Request)) :
    runSession ((now, .batch steps final) :: rest) db =
      (⟨.error e, (runBatch steps final db).answers, [], db⟩ :: (runSession rest db).1,
        (runSession rest db).2) := by
  simp only [runSession, Request.run, h, database_of_refused h]
  rfl

/-- **Transactions against statements one by one**: a batch gives the answers of the same steps run
one by one up to the first failure. If no step fails, the batch writes what they write, unless the
caller has a failure of its own, which is then its result and takes everything back. If a step
fails, it undoes only itself, and the steps one by one keep what was written before it; its failure
is the result of the batch, whatever failure the caller had, and the batch takes everything back.
After a batch that fails a session goes on as if it had not been there. -/
theorem runBatch_against_runEach (steps : List StoreStep) (final : Option Failure) (db : Database) :
    let batch := runBatch steps final db
    let each := runEach steps db
    batch.answers = each.1 ∧
      ((∃ answers, Completes db steps answers each.2 ∧ each.1 = answers.map .ok ∧
          match final with
          | none => batch.result = .ok () ∧ batch.database = each.2
          | some e => batch.result = .error e ∧ batch.database = db) ∨
        ∃ answers e, Breaks db steps answers e each.2 ∧ each.1 = answers.map .ok ++ [.error e] ∧
          runSteps final steps db = (each.1, .error e each.2) ∧ batch.result = .error e ∧
          batch.database = db) ∧
      (∀ e, batch.result = .error e → ∀ now rest,
        runSession ((now, .batch steps final) :: rest) db =
          (⟨.error e, each.1, [], db⟩ :: (runSession rest db).1, (runSession rest db).2)) ∧
      (db.Schema → batch.database.Schema) := by
  intro batch each
  have hschema : db.Schema → batch.database.Schema := schema_runBatch steps final
  rcases completes_or_breaks steps db with ⟨answers, after, hall⟩ | ⟨answers, e, after, hbreaks⟩
  · have heach : each = (answers.map .ok, after) := hall.runEach_eq
    have hbatch : batch = final.elim ⟨answers.map .ok, .ok (), after⟩
        fun e => ⟨answers.map .ok, .error e, db⟩ := hall.runBatch_eq final
    have hanswers : batch.answers = each.1 := by
      rw [hbatch, heach]
      cases final <;> rfl
    refine ⟨hanswers, .inl ⟨answers, heach ▸ hall, heach ▸ rfl, ?_⟩, fun e he now rest => ?_, hschema⟩
    · rw [hbatch, heach]
      cases final with
      | none => exact ⟨rfl, rfl⟩
      | some e => exact ⟨rfl, rfl⟩
    · rw [← hanswers]
      exact runSession_of_refused he now rest
  · have heach : each = (answers.map .ok ++ [.error e], after) := hbreaks.runEach_eq
    have hbatch : batch = ⟨answers.map .ok ++ [.error e], .error e, db⟩ := hbreaks.runBatch_eq final
    have hanswers : batch.answers = each.1 := by rw [hbatch, heach]
    refine ⟨hanswers, .inr ⟨answers, e, heach ▸ hbreaks, heach ▸ rfl, ?_, ?_, ?_⟩,
      fun e he now rest => ?_, hschema⟩
    · rw [heach]
      exact hbreaks.runSteps_eq final
    · rw [hbatch]
    · rw [hbatch]
    · rw [← hanswers]
      exact runSession_of_refused he now rest

/-- A second marked script is refused inside a batch after a first one was stored, and the batch
takes the first one back and answers with the broken rule. -/
theorem runBatch_against_runEach_rival :
    let day : Script := ⟨"ann", "day", "keep;", 5, true, some .epoch⟩
    let night : Script := ⟨"ann", "night", "stop;", 5, true, some .epoch⟩
    let steps : List StoreStep :=
      [.upsertScript day, .upsertScript night, .deleteScript "ann" "day"]
    let batch := runBatch steps (some (.quotaNotFound .default)) .empty
    batch.answers = [.ok .done, .error (.storage .secondActive)] ∧
      batch.result = .error (.storage .secondActive) ∧ batch.database = .empty ∧
      (runEach steps .empty).2 = ⟨[day.stored], []⟩ ∧ batch.answers = (runEach steps .empty).1 := by
  intro day night steps batch
  have hanswers : batch.answers = [.ok .done, .error (.storage .secondActive)] := by decide +kernel
  have hresult : batch.result = .error (.storage .secondActive) := by decide +kernel
  have hdatabase : batch.database = .empty := by decide +kernel
  have heach : (runEach steps .empty).2 = ⟨[day.stored], []⟩ := by decide +kernel
  exact ⟨hanswers, hresult, hdatabase, heach,
    (runBatch_against_runEach steps (some (.quotaNotFound .default)) .empty).1⟩

end FilterStore
