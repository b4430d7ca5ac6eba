import FilterStore.CommandLine.Run
import FilterStore.Proofs.Files.Databases

/-!
The course of a command line on a tree of files.

* **Parts.** A part of a command line may fail, and either way leaves a world. `Yields` says what it
  comes to, and is proved step by step (`yields_lift`, `yields_orStop`, `yields_work`). Every part
  before the end leaves files that derive from those before, at the same time (`World.Derives`).
* **Connections.** An open database sits in the files (`Connection.Sits`): its tables are those at
  its place, or it is in memory and has no rows (`yields_openDatabase`).
* **Course.** `Call.Course` lists what a command line can come to, with what happened on the way:
  nothing is run, something fails, the database is made, or a task is performed on the tables that
  were found and these are closed with what it left (`course_run`).
-/

namespace FilterStore.CommandLine

open FileTree

/-! ### Parts of a command line -/

/-- A part of a command line that may fail, on worlds. -/
abbrev Part := ExceptT CommandFault (StateM World)

section Parts

variable {α β : Type} {w : World} {good : α → World → Prop} {bad : World → Prop}

/-- What a part comes to: it succeeds with a value and in a world of one kind, or fails in a world
of another kind. -/
def Yields (x : Part α) (w : World) (good : α → World → Prop) (bad : World → Prop) : Prop :=
  match (x.run w : Except CommandFault α × World) with
  | (.ok a, after) => good a after
  | (.error _, after) => bad after

lemma yields_lift {act : StateM World α} {f : α → Part β} {good : β → World → Prop}
    (h : Yields (f (act w).1) (act w).2 good bad) : Yields (liftM act >>= f) w good bad :=
  h

lemma Yields.of_ok {x : Part α} {a : α} {after : World} (h : Yields x w good bad)
    (hrun : x.run w = (.ok a, after)) : good a after := by
  rw [Yields, hrun] at h
  exact h

lemma Yields.of_error {x : Part α} {fault : CommandFault} {after : World}
    (h : Yields x w good bad) (hrun : x.run w = (.error fault, after)) : bad after := by
  rw [Yields, hrun] at h
  exact h

lemma yields_orStop {ε : Type} {fault : ε → CommandFault} {result : Except ε α} {f : α → Part β}
    {good : β → World → Prop} (hok : ∀ a, result = .ok a → Yields (f a) w good bad) (hbad : bad w) :
    Yields (orStop fault result >>= f) w good bad := by
  cases result with
  | ok a => exact hok a rfl
  | error e => exact hbad

lemma yields_stop {ε : Type} {fault : ε → CommandFault} {result : Except ε α}
    (hok : ∀ a, result = .ok a → good a w) (hbad : bad w) :
    Yields (orStop fault result) w good bad := by
  cases result with
  | ok a => exact hok a rfl
  | error e => exact hbad

lemma run_work {α : Type} (act : FileTree.Work α) (w : World) :
    World.work act w = match act w.files with
      | .ok a files => (.ok a, { w with files })
      | .error fault files => (.error fault, { w with files }) := by
  rw [World.work, World.alter]
  cases act w.files <;> rfl

/-- Work on the files of a world ends as it does on the files, and the failure of the work is that
of the part. -/
lemma yields_work {act : FileTree.Work α} {f : α → Part β} {mid : α → FileTree → Prop}
    {left : FileTree → Prop} {good : β → World → Prop} (hact : Ensures act w.files mid left)
    (hok : ∀ a files, mid a files → Yields (f a) { w with files } good bad)
    (hbad : ∀ files, left files → bad { w with files }) :
    Yields (liftM (World.work act) >>= fun result => orRefuse result >>= f) w good bad := by
  refine yields_lift ?_
  rcases hact.ok_or_error with ⟨a, files, hrun, hmid⟩ | ⟨fault, files, hrun, hleft⟩
  · rw [run_work, hrun]
    exact hok a files hmid
  · rw [run_work, hrun]
    exact hbad files hleft

end Parts

/-! ### Worlds -/

/-- At most the standard input was taken. -/
def World.Reads (w after : World) : Prop :=
  ∃ input, after = { w with input }

/-- The files of a world derive from those of another one, at the same time. -/
structure World.Derives (w after : World) : Prop where
  /-- The files derive. -/
  files : w.files.Derives after.files
  /-- The time is the same. -/
  now : after.now = w.now

namespace World.Derives

variable {w w' after : World}

lemma refl (w : World) : w.Derives w :=
  ⟨.refl _, rfl⟩

lemma trans (h : w.Derives w') (h' : w'.Derives after) : w.Derives after :=
  ⟨h.files.trans h'.files, h'.now.trans h.now⟩

lemma of_reads (h : w.Reads after) : w.Derives after := by
  obtain ⟨input, rfl⟩ := h
  exact ⟨.refl _, rfl⟩

lemma of_files {files : FileTree} (h : w.files.Derives files) : w.Derives { w with files } :=
  ⟨h, rfl⟩

end World.Derives

/-! ### Before the end -/

/-- The tables of an open database are those at its place in the files. In memory they have no
rows. -/
structure Connection.Sits (c : Connection Handle) (files : FileTree) : Prop where
  /-- The place is not the root. -/
  place_ne : ∀ place ∈ c.handle.place?, place ≠ []
  /-- The tables stand at the place. -/
  tables : ∀ place ∈ c.handle.place?, files.tablesAt place = some c.database
  /-- In memory there are no rows. -/
  memory : c.handle.place? = none → c.database = .empty

section Before

variable {w : World}

/-- Reading a file takes at most the standard input. -/
lemma run_readFile (path : String) (w : World) :
    ∃ input, (Host.readFile path : StateM World (Except FileFault ByteArray)) w =
      (w.files.readFile w.input path, { w with input }) := by
  have hif : (Host.readFile path : StateM World (Except FileFault ByteArray)) w =
      if w.files.isInput path then
        (w.files.readFile w.input path, { w with input := .empty })
      else (w.files.readFile w.input path, w) := by
    change (if w.files.isInput path then _ else _ : StateM World _) w = _
    split <;> rfl
  rw [hif]
  split
  · exact ⟨_, rfl⟩
  · exact ⟨_, rfl⟩

lemma reads_readFile (path : String) (w : World) :
    w.Reads ((Host.readFile path : StateM World (Except FileFault ByteArray)) w).2 := by
  obtain ⟨input, hread⟩ := run_readFile path w
  rw [hread]
  exact ⟨input, rfl⟩

/-- The settings are read without any change to the files. -/
lemma yields_settings (places : Places) (w : World) :
    Yields (settings places) w (fun _ => w.Reads) w.Reads := by
  unfold settings
  dsimp only
  split
  · exact yields_stop (fun _ _ => ⟨_, rfl⟩) ⟨_, rfl⟩
  · next path hpath =>
      rw [bind_map_left]
      have hread := reads_readFile path w
      exact yields_lift (yields_stop (fun _ _ => hread) hread)

/-- So is what a task needs. -/
lemma yields_prepare (task : Task) (w : World) :
    Yields (prepare task) w (fun _ => w.Reads) w.Reads := by
  cases task with
  | put owner name file =>
      cases file with
      | some path =>
          have hread := reads_readFile path w
          exact yields_lift (yields_stop (fun _ _ => hread) hread)
      | none => exact yields_lift (yields_stop (fun _ _ => ⟨_, rfl⟩) ⟨_, rfl⟩)
  | delete owner name consent | removeQuota key consent =>
      exact yields_orStop (fun _ _ => ⟨_, rfl⟩) ⟨_, rfl⟩
  | _ => exact ⟨_, rfl⟩

/-- The database that is opened sits in the files, which derive from those before. -/
theorem yields_openDatabase (s : Settings) (w : World) :
    Yields (openDatabase s) w (fun c after => w.Derives after ∧ c.Sits after.files) w.Derives := by
  unfold openDatabase
  refine yields_lift ?_
  have hdirs : w.Derives ((Host.makeDirectories s.dataDir : StateM World _) w).2 :=
    .of_files (derives_makeDirectories w.files s.dataDir)
  generalize (Host.makeDirectories s.dataDir : StateM World _) w = made at hdirs ⊢
  obtain ⟨result, w₁⟩ := made
  refine yields_orStop (fun _ _ => ?_) hdirs
  refine yields_orStop (fun l _ => ?_) hdirs
  refine yields_work (ensures_connect l w₁.files) (fun h files ⟨_, hplace, hfiles⟩ => ?_)
    fun files hfiles => hdirs.trans (.of_files hfiles)
  have hopened : w.Derives { w₁ with files } := hdirs.trans (.of_files hfiles)
  have hne : ∀ place ∈ h.place?, place ≠ [] := by
    intro place hmem
    rw [hplace] at hmem
    obtain ⟨path, -, hpath⟩ := Option.bind_eq_some_iff.mp hmem
    exact ne_nil_of_resolve hpath
  dsimp only
  split
  · exact hopened
  · refine yields_work (ensures_load hne files)
      (fun opened files' ⟨hloaded, htables, hmemory⟩ => ?_)
      fun files' hloaded => hopened.trans (.of_files hloaded)
    exact ⟨hopened.trans (.of_files hloaded), hne, htables, hmemory⟩

lemma yields_openPresent (s : Settings) (w : World) :
    Yields (openPresent s) w (fun c after => w.Derives after ∧ c.Sits after.files) w.Derives := by
  unfold openPresent
  refine yields_lift ?_
  change Yields (if w.files.isPresent s.databasePath then _ else _) w _ _
  split
  · exact yields_openDatabase s w
  · exact .refl w

end Before

/-! ### Course -/

/-- Closing a database writes its tables if they may be written. -/
lemma closed_closeDatabase {c : Connection Handle} {w : World} (hsits : c.Sits w.files)
    (db : Database) :
    ∃ files, Closed c.handle db c.writing w.files files ∧
      (closeDatabase c db : StateM World Unit) w = ((), { w with files }) := by
  have hrun : (closeDatabase c db : StateM World Unit) w =
      ((), (World.work (FileTree.close c.handle db c.writing) w).2) := rfl
  rcases (ensures_close hsits.place_ne db c.writing w.files).ok_or_error with
    ⟨u, files, hfiles, hclosed⟩ | ⟨fault, files, hfiles, hclosed⟩
  · rw [hrun, run_work, hfiles]
    exact ⟨files, hclosed, rfl⟩
  · rw [hrun, run_work, hfiles]
    exact ⟨files, hclosed, rfl⟩

/-- The world in which a call runs. -/
def Call.world (call : Call) (files : FileTree) : World :=
  ⟨files, call.input, call.now⟩

/-- A call got as far as to ask the repository: the settings are read, the database is open, and the
content that the task needs is there. -/
structure Call.Asks (call : Call) (files : FileTree) (s : Settings) (task : Task)
    (c : Connection Handle) (content : String) (ready : World) : Prop where
  reached : ∃ places chosen opened,
    Invocation.ofWords call.words = .ok ⟨places, .task task⟩ ∧
      (settings places : Part Settings).run (call.world files) = (.ok s, chosen) ∧
      (openPresent s : Part (Connection Handle)).run chosen = (.ok c, opened) ∧
      (prepare task : Part String).run opened = (.ok content, ready)

/-- What a call can come to, and the files it leaves. -/
inductive Call.Course (call : Call) (files : FileTree) : Report → FileTree → Prop
  /-- Nothing is run. -/
  | stopped {stop : Stop} (words : Invocation.ofWords call.words = .error stop) :
      Course call files (.stopped stop) files
  /-- Something fails before the repository is asked. -/
  | failed {fault : CommandFault} {events : List Event} {after : FileTree}
      (derives : files.Derives after) : Course call files (.ran (.error fault) events) after
  /-- The database is made, or found in its place. -/
  | made {places : Places} {output : String} {events : List Event} {after : FileTree}
      (words : Invocation.ofWords call.words = .ok ⟨places, .init⟩)
      (derives : files.Derives after) : Course call files (.ran (.ok output) events) after
  /-- A task is performed. -/
  | performed {s : Settings} {task : Task} {c : Connection Handle} {content : String}
      {ready : World} {after : FileTree} (asks : call.Asks files s task c content ready)
      (closed : Closed c.handle (task.performAs c.writing call.now content c.database).database
        c.writing ready.files after) :
      Course call files
        (.ran ((task.performAs c.writing call.now content c.database).result.mapError .failure)
          (.opened s.databasePath ::
            (task.performAs c.writing call.now content c.database).events)) after

variable {call : Call} {files : FileTree}

/-- When the repository is asked the database sits in files that derive from those before, at the
time of the call. -/
lemma Call.Asks.sits {s : Settings} {task : Task} {c : Connection Handle} {content : String}
    {ready : World} (h : call.Asks files s task c content ready) :
    (call.world files).Derives ready ∧ c.Sits ready.files := by
  obtain ⟨places, chosen, opened, -, hset, hopen, hprepare⟩ := h
  obtain ⟨input, rfl⟩ := (yields_settings places (call.world files)).of_ok hset
  obtain ⟨hderives, hsits⟩ := (yields_openPresent s _).of_ok hopen
  obtain ⟨input', rfl⟩ := (yields_prepare task opened).of_ok hprepare
  exact ⟨⟨hderives.files, hderives.now⟩, hsits⟩

/-- A failure before the repository is asked closes a database with the tables that were found. -/
lemma derives_of_closed {c : Connection Handle} {w : World} (hsits : c.Sits w.files)
    {after : FileTree} (hclosed : Closed c.handle c.database c.writing w.files after) :
    w.files.Derives after := by
  intro place left hleft
  rcases hclosed.databases place left hleft with ⟨rfl, hplace⟩ | hrest
  · exact .inr (hsits.tables place hplace)
  · exact hrest

lemma run_bind {α β : Type} (x : StateM World α) (f : α → StateM World β) (w : World) :
    (x >>= f) w = f (x w).1 (x w).2 :=
  rfl

lemma run_performTask (c : Connection Handle) (task : Task) (content : String) (w : World) :
    (performTask c task content : StateM World (Outcome String)) w =
      (task.performAs c.writing w.now content c.database,
        ((closeDatabase c (task.performAs c.writing w.now content c.database).database :
          StateM World Unit) w).2) :=
  rfl

/-- What is opened and closed again with the same tables derives. -/
lemma derives_closeDatabase {c : Connection Handle} {w : World} (hsits : c.Sits w.files) :
    w.files.Derives ((closeDatabase c c.database : StateM World Unit) w).2.files := by
  obtain ⟨after, hclosed, hrun⟩ := closed_closeDatabase hsits c.database
  rw [hrun]
  exact derives_of_closed hsits hclosed

/-- **The course of a call**: a call comes to one of these ends. -/
theorem course_run (call : Call) (files : FileTree) :
    call.Course files (call.run files).1 (call.run files).2 := by
  have hcall : call.run files =
      (((run call.words : StateM World Report) (call.world files)).1,
        ((run call.words : StateM World Report) (call.world files)).2.files) := rfl
  rw [hcall, run]
  cases hwords : Invocation.ofWords call.words with
  | error stop => exact .stopped hwords
  | ok invocation =>
      obtain ⟨places, command⟩ := invocation
      have hset := yields_settings places (call.world files)
      dsimp only [Invocation.run]
      rw [run_bind]
      rcases hchosen : (settings places : Part Settings).run (call.world files) with
        ⟨fault | s, chosen⟩
      · exact .failed (World.Derives.of_reads (hset.of_error hchosen)).files
      · have hreads := World.Derives.of_reads (hset.of_ok hchosen)
        cases command with
        | init =>
            have hopen := yields_openDatabase s chosen
            dsimp only [runCommand]
            rw [run_bind]
            rcases hopened : (openDatabase s : Part (Connection Handle)).run chosen with
              ⟨fault | c, opened⟩
            · exact .failed (hreads.trans (hopen.of_error hopened)).files
            · obtain ⟨hderives, hsits⟩ := hopen.of_ok hopened
              exact .made hwords ((hreads.trans hderives).files.trans (derives_closeDatabase hsits))
        | task task =>
            have hopen := yields_openPresent s chosen
            dsimp only [runCommand]
            rw [run_bind]
            rcases hopened : (openPresent s : Part (Connection Handle)).run chosen with
              ⟨fault | c, opened⟩
            · exact .failed (hreads.trans (hopen.of_error hopened)).files
            · obtain ⟨hderives, hsits⟩ := hopen.of_ok hopened
              have hprepare := yields_prepare task opened
              dsimp only
              rw [run_bind]
              rcases hready : (prepare task : Part String).run opened with ⟨fault | content, ready⟩
              · obtain ⟨input, rfl⟩ := hprepare.of_error hready
                exact .failed ((hreads.trans hderives).files.trans (derives_closeDatabase hsits))
              · have hasks : call.Asks files s task c content ready :=
                  ⟨places, chosen, opened, hwords, hchosen, hopened, hready⟩
                obtain ⟨hderives', hsits'⟩ := hasks.sits
                have hnow : ready.now = call.now := hderives'.now
                obtain ⟨after, hclosed, hclose⟩ := closed_closeDatabase hsits'
                  (task.performAs c.writing call.now content c.database).database
                dsimp only
                rw [run_bind, run_performTask, hnow, hclose]
                exact .performed hasks hclosed

end FilterStore.CommandLine
