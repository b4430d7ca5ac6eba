import FilterStore.CommandLine.Task
import FilterStore.Proofs.Repository.Lasting

/-!
What the command line says that it did, and whether that is so.

* **Methods.** One lemma for each method reads off what a success leaves: `get_after_put`,
  `markedNames_after_activate`, `found_after_rename` and so on. What is read in a row has to be
  readable when it is written again, so some are about steady tables.
* **Sentences.** A task that changes something, and the question whether a script would fit, end
  with a sentence (`Task.sentence?`). What it says of the tables that the task found and of those
  that it left is `Task.Holds`. To perform a task is to call an operation and print the answer
  (`perform_eq`).
* **Truth.** A task that succeeds ends with its sentence, and the sentence holds exactly if the task
  was not to activate a script without a name (`holds_iff_of_perform`). Where the tables may not be
  written, every task leaves them as they are (`database_of_not_allowed`).
-/

namespace FilterStore

/-! ### Active scripts -/

namespace Database

variable {db : Database} {owner : String}

/-- The names under which an owner has scripts with the mark of the active one. -/
def markedNames (db : Database) (owner : String) : List String :=
  (db.scripts.filter fun r => r.owner = owner ∧ r.Marked).map ScriptRow.name

/-- A marked script is the only one of its owner. -/
lemma markedNames_of_mem (hdb : db.Schema) {r : ScriptRow} (hr : r ∈ db.scripts) (hm : r.Marked) :
    db.markedNames r.owner = [r.name] := by
  have hmem : r ∈ db.scripts.filter fun q => q.owner = r.owner ∧ q.Marked :=
    List.mem_filter.mpr ⟨hr, decide_eq_true ⟨rfl, hm⟩⟩
  obtain ⟨q, hq⟩ := List.length_eq_one_iff.mp
    ((hdb.length_marked_le_one r.owner).antisymm (List.length_pos_of_mem hmem))
  rw [hq, List.mem_singleton] at hmem
  rw [markedNames, hq, hmem]
  rfl

lemma markedNames_eq_nil (h : ∀ r ∈ db.scripts, r.owner = owner → ¬ r.Marked) :
    db.markedNames owner = [] := by
  have hnone : db.scripts.filter (fun r => r.owner = owner ∧ r.Marked) = [] := by
    refine List.filter_eq_nil_iff.mpr fun r hr hp => ?_
    obtain ⟨ho, hm⟩ := of_decide_eq_true hp
    exact h r hr ho hm
  rw [markedNames, hnone]
  rfl

end Database

/-! ### What a success leaves -/

namespace Repository

variable {db : Database} {owner name source target : String} {key : QuotaKey} {now : Instant}

/-- A content that was stored is what is got under the name. -/
lemma get_after_put (hdb : db.Steady) {content : String}
    (h : (put owner name content db).result = .ok ()) :
    (get owner name (put owner name content db).database).result = .ok content := by
  rcases put_cases owner name content db with ⟨e, he, -⟩ | ⟨previous, names, -, found, takes, hput⟩
  · rw [he] at h
    cases h
  · have hdate : ∀ t ∈ (replacement owner name content previous).activatedAt, t.Survives := by
      cases previous with
      | none => exact fun _ ht => nomatch ht
      | some p => exact fun t ht => (hdb.date found t ht).survives
    have hkey : (replacement owner name content previous).owner = owner ∧
        (replacement owner name content previous).name = name := by
      cases previous <;> exact ⟨rfl, rfl⟩
    have hcontent : (replacement owner name content previous).content = content := by
      cases previous <;> rfl
    rw [hput, get_eq (checkScript_eq_ok_iff.mp names).1,
      Database.findScript_store hdb.schema takes.storable takes.coherent hdate, if_pos hkey]
    exact congrArg Except.ok hcontent

/-- The last write that makes a script the only active one is that of this script, on tables that
take it. -/
lemma exists_storeAll_switchOver (hdb : db.Schema) (now : Instant) {target : Script}
    {current : Option Script} (htarget : db.findScript owner name = .ok (some target))
    (hcurrent : db.findActive owner = .ok current) :
    ∃ before : Database, before.Schema ∧ before.Takes (target.activate now) ∧
      db.storeAll (switchOver now target current) = before.store (target.activate now) := by
  have htakes := takesInTurn_switchOver hdb now htarget hcurrent
  cases current with
  | none => exact ⟨db, hdb, htakes.1, rfl⟩
  | some other =>
      by_cases hname : other.name = target.name
      · rw [switchOver_of_eq hname] at htakes ⊢
        exact ⟨db, hdb, htakes.1, rfl⟩
      · rw [switchOver_of_ne hname] at htakes ⊢
        exact ⟨_, hdb.store htakes.1, htakes.2.1, rfl⟩

/-- A script that was made the active one is the only one that is marked. -/
lemma markedNames_after_activate (hdb : db.Schema) (hname : name ≠ "")
    (h : (setActive now owner name db).result = .ok ()) :
    (setActive now owner name db).database.markedNames owner = [name] := by
  have ho := checks_of_ok h
  rw [setActive_eq ho, if_neg hname, activate_eq hdb] at h ⊢
  rcases hfind : db.findScript owner name with f | _ | s
  · rw [hfind] at h
    cases h
  · rw [hfind] at h
    cases h
  · rw [hfind] at h
    cases hactive : db.findActive owner with
    | error f =>
        rw [hactive] at h
        cases h
    | ok current =>
        obtain ⟨r, -, hro, hrn, hrs⟩ := Database.shows_of_findScript hdb hfind
        obtain ⟨before, hbefore, takes, heq⟩ := exists_storeAll_switchOver hdb now hfind hactive
        have hmem : (s.activate now).stored ∈ (before.store (s.activate now)).scripts :=
          (Database.mem_store hbefore).mpr (.inl rfl)
        have hmarked : (s.activate now).stored.Marked := (Script.stored_marked _).mpr rfl
        have hnames := Database.markedNames_of_mem (hbefore.store takes) hmem hmarked
        rw [← heq, Script.stored_owner, Script.stored_name] at hnames
        rw [← hrs.owner.trans hro, ← hrs.name.trans hrn]
        exact hnames

/-- After switching off no script is marked. -/
lemma markedNames_after_deactivate (hdb : db.Schema)
    (h : (setActive now owner Name.noScript db).result = .ok ()) :
    (setActive now owner Name.noScript db).database.markedNames owner = [] := by
  have ho := checks_of_ok h
  rw [setActive_eq ho, if_pos Name.noScript.eq_def, deactivate_eq hdb] at h ⊢
  rcases hactive : db.findActive owner with f | _ | s
  · rw [hactive] at h
    cases h
  · have hrow := Database.activeRow?_eq_none_iff.mp (optionMapM_eq_none_iff.mp hactive)
    exact Database.markedNames_eq_nil fun r hr hro => hrow r hr hro
  · refine Database.markedNames_eq_nil fun r hr hro hm => ?_
    rcases (Database.mem_store hdb).mp hr with rfl | ⟨hr, hne⟩
    · cases s.deactivate.stored_marked.mp hm
    · exact hne ⟨hro.trans (Database.owner_of_findActive hactive).symm,
        Database.noOtherMarked_of_findActive hdb hactive r hr hro hm⟩

/-- A script that was deleted is not found. -/
lemma get_after_delete (h : (delete owner name db).result = .ok ()) :
    (get owner name (delete owner name db).database).result =
      .error (.scriptNotFound name owner) := by
  have ho := checks_of_ok h
  rw [delete_eq ho] at h ⊢
  rcases hfind : db.findScript owner name with f | _ | s
  · rw [hfind] at h
    cases h
  · rw [hfind] at h
    cases h
  · rw [hfind] at h
    by_cases ha : s.active = true
    · simp only [if_pos ha] at h
      cases h
    · simp only [if_neg ha]
      rw [get_eq ho, Database.findScript_deleteScript, if_pos ⟨rfl, rfl⟩]
      rfl

/-- A script that was renamed is not found under its old name, and is found as it was under the new
one. -/
lemma found_after_rename (hdb : db.Steady) (h : (rename owner source target db).result = .ok ()) :
    let after := (rename owner source target db).database
    (get owner source after).result = .error (.scriptNotFound source owner) ∧
      ∃ s, db.findScript owner source = .ok (some s) ∧
        after.findScript owner target = .ok (some { s with name := target }) := by
  have hc := checks_of_ok h
  have ho := (checkScript_eq_ok_iff.mp hc).1
  rw [rename_eq hdb.schema hc] at h ⊢
  rcases hfind : db.findScript owner source with f | _ | s
  · rw [hfind] at h
    cases h
  · rw [hfind] at h
    cases h
  · rw [hfind] at h
    rcases htarget : db.findScript owner target with f | _ | p
    · rw [htarget] at h
      cases h
    · have hne : target ≠ source := by
        rintro rfl
        rw [hfind] at htarget
        cases htarget
      have takes := takes_renamed hdb.schema hfind target
      have howner : s.owner = owner := Database.owner_of_findScript hfind
      have hstore : ∀ name, ((db.deleteScript owner source).store (s.renamed target)).findScript
          owner name = if (s.renamed target).owner = owner ∧ (s.renamed target).name = name
            then .ok (some (s.renamed target))
            else (db.deleteScript owner source).findScript owner name :=
        fun name => Database.findScript_store hdb.schema.deleteScript takes.storable takes.coherent
          fun t ht => (hdb.date hfind t ht).survives
      refine ⟨?_, s, rfl, ?_⟩
      · rw [get_eq ho, hstore, if_neg fun hkey => hne hkey.2, Database.findScript_deleteScript,
          if_pos ⟨rfl, rfl⟩]
        rfl
      · rw [hstore, if_pos ⟨howner, rfl⟩]
        rfl
    · rw [htarget] at h
      cases h

/-- If so many bytes fit, every content of so many bytes can be stored under a valid name. -/
lemma put_after_haveSpace (hdb : db.Schema) {size : UInt64}
    (h : (haveSpace owner name size db).result = .ok ()) (hsize : size.toNat < columnBound)
    (hname : Name.Valid .script name) {content : String}
    (hcontent : content.utf8ByteSize = size.toNat) :
    (put owner name content (haveSpace owner name size db).database).result = .ok () := by
  have ho := checks_of_ok h
  have hc : checkScript owner name = .ok () :=
    checkScript_eq_ok_iff.mpr ⟨ho, Name.require_eq_ok_iff.mpr hname⟩
  have hcount : contentSize content = size := by
    rw [contentSize, hcontent, UInt64.ofNat_toNat]
  rw [haveSpace_eq ho] at h ⊢
  cases hv : spaceVerdict owner name size db with
  | error e =>
      rw [hv] at h
      cases h
  | ok u =>
      obtain ⟨previous, -, hput⟩ :=
        put_stored hdb hc (hcontent.trans_lt hsize) (hcount.symm ▸ hv)
      rw [hput]

/-- A limit that was set is what is got. -/
lemma getQuota_after_setQuota (hdb : db.Schema) {limit : Limit}
    (h : (setQuota key limit db).result = .ok ()) :
    (getQuota key (setQuota key limit db).database).result = .ok limit := by
  have hk := checks_of_ok h
  rcases limit.storable_or with hl | ⟨count, rfl, hcount⟩
  · rw [setQuota_stored key hk hl, getQuota_eq key hk, Database.findLimit_storeLimit hdb hl,
      if_pos rfl]
  · rw [setQuota_refused key hk hcount] at h
    cases h

/-- After an entry was removed there is none. -/
lemma hasQuota_after_removeQuota (h : (removeQuota key db).result = .ok ()) :
    (hasQuota key (removeQuota key db).database).result = .ok false := by
  have hk := checks_of_ok h
  rw [removeQuota_eq key hk, hasQuota_eq key hk, Database.findLimit_deleteLimit, if_pos rfl]
  rfl

end Repository

/-! ### Sentences -/

namespace CommandLine.Task

/-- The sentence by which a task says what was done, with the content that was read for it. -/
def sentence? (content : String) : Task → Option String
  | .put owner name _ => s!"Stored script '{name}' for {owner} ({content.utf8ByteSize} bytes)\n"
  | .activate owner name => s!"Activated script '{name}' for {owner}\n"
  | .deactivate owner => s!"No active script for {owner}\n"
  | .delete owner name _ => s!"Deleted script '{name}' for {owner}\n"
  | .rename owner source target => s!"Renamed script '{source}' to '{target}' for {owner}\n"
  | .check owner name size => s!"{size} bytes fit for '{name}' of {owner}\n"
  | .setQuota key limit => s!"Set {key.text} to {limit.text}\n"
  | .removeQuota key _ => s!"Removed {key.text}\n"
  | .get _ _ | .list _ _ | .active _ _ | .getQuota _ => none

/-- What the sentence of a task says of the tables that were found and of those that were left. -/
def Holds (content : String) (found left : Database) : Task → Prop
  | .put owner name _ => (Repository.get owner name left).result = .ok content
  | .activate owner name => left.markedNames owner = [name]
  | .deactivate owner => left.markedNames owner = []
  | .delete owner name _ =>
    (Repository.get owner name left).result = .error (.scriptNotFound name owner)
  | .rename owner source target =>
    (Repository.get owner source left).result = .error (.scriptNotFound source owner) ∧
      ∃ s, found.findScript owner source = .ok (some s) ∧
        left.findScript owner target = .ok (some { s with name := target })
  | .check owner name size =>
    size.toNat < 2 ^ 63 → Name.Valid .script name → ∀ content : String,
      content.utf8ByteSize = size.toNat → (Repository.put owner name content left).result = .ok ()
  | .setQuota key limit => (Repository.getQuota key left).result = .ok limit
  | .removeQuota key _ => (Repository.hasQuota key left).result = .ok false
  | .get _ _ | .list _ _ | .active _ _ | .getQuota _ => True

/-- Whether the task is to activate a script without a name. -/
def ActivatesNothing : Task → Prop
  | .activate _ name => name = Name.noScript
  | _ => False

/-! ### Tasks and operations -/

/-- The operation of the repository by which a task is performed. -/
def request (content : String) : Task → Operation
  | .put owner name _ => .put owner name content
  | .get owner name => .get owner name
  | .list owner _ => .list owner
  | .active owner false => .getActive owner
  | .active owner true => .getActivationDate owner
  | .activate owner name => .setActive owner name
  | .deactivate owner => .setActive owner Name.noScript
  | .delete owner name _ => .delete owner name
  | .rename owner source target => .rename owner source target
  | .check owner name size => .haveSpace owner name size
  | .getQuota .default => .getDefaultQuota
  | .getQuota (.owner owner) => .getQuota owner
  | .setQuota .default limit => .setDefaultQuota limit
  | .setQuota (.owner owner) limit => .setQuota owner limit
  | .removeQuota .default _ => .removeDefaultQuota
  | .removeQuota (.owner owner) _ => .removeQuota owner

/-- What is printed for an answer of the operation. -/
def shown (content : String) : Task → Answer → String
  | .list owner json, .listing scripts => listing owner json scripts
  | .get _ _, .content text | .active _ _, .content text => text
  | .active _ _, .date t => Timestamp.write t ++ "\n"
  | .getQuota _, .limit limit => limit.text ++ "\n"
  | task, _ => (task.sentence? content).getD ""

variable {db : Database} {now : Instant} {content output : String} {task : Task}

/-- To perform a task is to call its operation and to print the answer. -/
theorem perform_eq (now : Instant) (content : String) (task : Task) (db : Database) :
    task.perform now content db =
      ((task.request content).run now db).map (task.shown content) := by
  cases task with
  | get owner name =>
      rw [request, Operation.run, Outcome.map_map]
      exact (Outcome.map_self _).symm
  | active owner date =>
      cases date with
      | false =>
          rw [request, Operation.run, Outcome.map_map]
          exact (Outcome.map_self _).symm
      | true =>
          rw [request, Operation.run, Outcome.map_map]
          rfl
  | getQuota key | setQuota key limit | removeQuota key consent =>
      cases key <;> (rw [request, Operation.run, Outcome.map_map]; rfl)
  | _ =>
      rw [request, Operation.run, Outcome.map_map]
      rfl

lemma database_perform (now : Instant) (content : String) (task : Task) (db : Database) :
    (task.perform now content db).database = ((task.request content).run now db).database := by
  rw [perform_eq]
  rfl

lemma steady_perform (hdb : db.Steady) (now : Instant) (content : String) (task : Task) :
    (task.perform now content db).database.Steady :=
  database_perform now content task db ▸ (task.request content).steady_run hdb now

/-! ### Truth -/

/-- A task that succeeds prints its sentence, and what this says is so, unless the task was to
activate a script without a name. -/
theorem holds_iff_of_perform (hdb : db.Steady)
    (h : (task.perform now content db).result = .ok output) :
    (∀ sentence ∈ task.sentence? content, output = sentence) ∧
      (task.Holds content db (task.perform now content db).database ↔ ¬ task.ActivatesNothing) := by
  have hdone : ∀ {o : Outcome Unit} {text : String}, (o.map fun _ => text).result = .ok output →
      o.result = .ok () ∧ ∀ sentence ∈ some text, output = sentence := by
    intro o text ho
    rw [Outcome.map] at ho
    cases hresult : o.result with
    | error e => simp [hresult, Except.map] at ho
    | ok u =>
        rw [hresult] at ho
        refine ⟨rfl, ?_⟩
        rintro _ ⟨⟩
        exact (Except.ok.inj ho).symm
  cases task with
  | put owner name file =>
      exact ⟨(hdone h).2, iff_of_true (Repository.get_after_put hdb (hdone h).1) id⟩
  | activate owner name =>
      obtain ⟨hok, hsaid⟩ := hdone h
      refine ⟨hsaid, ?_⟩
      by_cases hname : name = Name.noScript
      · subst hname
        have hnone := Repository.markedNames_after_deactivate hdb.schema hok
        refine iff_of_false (fun hholds => ?_) fun hnamed => hnamed rfl
        cases hholds.symm.trans hnone
      · exact iff_of_true (Repository.markedNames_after_activate hdb.schema hname hok) hname
  | deactivate owner =>
      exact ⟨(hdone h).2,
        iff_of_true (Repository.markedNames_after_deactivate hdb.schema (hdone h).1) id⟩
  | delete owner name consent =>
      exact ⟨(hdone h).2, iff_of_true (Repository.get_after_delete (hdone h).1) id⟩
  | rename owner source target =>
      exact ⟨(hdone h).2, iff_of_true (Repository.found_after_rename hdb (hdone h).1) id⟩
  | check owner name size =>
      refine ⟨(hdone h).2, iff_of_true (fun hsize hname content hcontent => ?_) id⟩
      exact Repository.put_after_haveSpace hdb.schema (hdone h).1 hsize hname hcontent
  | setQuota key limit =>
      exact ⟨(hdone h).2,
        iff_of_true (Repository.getQuota_after_setQuota hdb.schema (hdone h).1) id⟩
  | removeQuota key consent =>
      exact ⟨(hdone h).2, iff_of_true (Repository.hasQuota_after_removeQuota (hdone h).1) id⟩
  | get owner name | list owner json | active owner date | getQuota key =>
      refine ⟨?_, iff_of_true trivial id⟩
      rintro _ ⟨⟩

/-! ### Tables that may not be written -/

/-- A task that does not count as one that wrote leaves the tables as they are. -/
lemma database_of_not_hasWritten (hdb : db.Schema)
    (h : task.hasWritten (task.perform now content db).events = false) :
    (task.perform now content db).database = db := by
  have hreads : ∀ op : Operation, op.Fits →
      (∀ event after, ¬ Operation.Writes now db op event after) →
      (op.run now db).database = db := fun op hfit hnone =>
    (Operation.database_run hdb hfit now).resolve_right fun ⟨_, writes⟩ => hnone _ _ writes
  have hswitches : ∀ owner name, ((Operation.setActive owner name).run now db).events = [] →
      ((Operation.setActive owner name).run now db).database = db := by
    intro owner name hsilent
    have hfit : (Operation.setActive owner name).Fits := trivial
    rcases Operation.run_cases hdb hfit now with ⟨e, -, hrun⟩ | hends
    · rw [hrun]
    · generalize (Operation.setActive owner name).run now db = o at hends hsilent ⊢
      cases hends with
      | refused e => rfl
      | answered a => rfl
      | wrote writes => cases hsilent
  rw [database_perform]
  cases task with
  | get owner name | list owner json | check owner name size => exact hreads _ trivial nofun
  | active owner date => cases date <;> exact hreads _ trivial nofun
  | getQuota key => cases key <;> exact hreads _ trivial nofun
  | activate owner name | deactivate owner =>
      rw [perform_eq] at h
      exact hswitches _ _ (by simpa [hasWritten, request, Outcome.map] using h)
  | put owner name file | delete owner name consent | rename owner source target
  | setQuota key limit | removeQuota key consent => cases h

/-- A task that fails leaves the tables as they are. -/
lemma database_of_perform_error (hdb : db.Schema) {e : Failure}
    (h : (task.perform now content db).result = .error e) :
    (task.perform now content db).database = db := by
  rw [database_perform]
  rw [perform_eq, Outcome.map] at h
  cases hrun : ((task.request content).run now db).result with
  | error f => exact Operation.database_of_error hdb hrun
  | ok a => simp [hrun, Except.map] at h

/-- Where the tables may not be written every task leaves them as they are. -/
theorem database_of_not_allowed (hdb : db.Schema) {writing : Writing} (hw : writing ≠ .allowed) :
    (task.performAs writing now content db).database = db := by
  rw [performAs]
  split_ifs with hpossible
  · cases hresult : (task.perform now content db).result with
    | error e => exact database_of_perform_error hdb hresult
    | ok text =>
        cases writing with
        | allowed => exact absurd rfl hw
        | refused =>
            refine database_of_not_hasWritten hdb ?_
            simpa [isPossible, hresult] using hpossible
        | sealed => simp [isPossible, hresult] at hpossible
  · rfl

/-- A task that succeeds was performed as it is where everything may be written. -/
lemma performAs_of_ok {writing : Writing}
    (h : (task.performAs writing now content db).result = .ok output) :
    task.performAs writing now content db = task.perform now content db := by
  rw [performAs] at h ⊢
  split_ifs at h ⊢ with hpossible
  · rfl
  · cases h

end CommandLine.Task

end FilterStore
