import FilterStore.Files.Opening
import Mathlib.Tactic.Common

/-!
What work on files does to the databases among them.

* **Tables.** `tablesAt` is what the database at a place holds. Files derive from others if each of
  their databases was there before, at the same place and with the same tables, or is empty
  (`Derives`).
* **Work.** `Ensures` says what work comes to when it ends well and when it stops at a fault, and is
  proved step by step (`ensures_bind`). Work is `Quiet` for a place if it changes nothing there and
  derives the other files; this is so of all that happens to the files beside a database.
* **Opening.** Files that come out of `connect` and `load` derive from those before, also after a
  fault, and the tables that `load` reads are those that stand at the place (`ensures_load`).
* **Closing.** With the right to write the given tables are put at the place; nothing else changes
  that a database holds (`ensures_close`).
-/

namespace FilterStore

open Text

/-- The tables of an entry, if it is the file of a database in which they are made. -/
def FileEntry.tables? : FileEntry → Option Database
  | .database tables? _ => tables?
  | _ => none

namespace FileTree

variable {t t' after : FileTree} {place other : Location}

/-! ### Tables -/

/-- The tables of the database at a place, if they are made. -/
def tablesAt (t : FileTree) (place : Location) : Option Database :=
  (t.lookup? place).bind FileEntry.tables?

lemma lookup?_put_of_ne (t : FileTree) (entry : FileEntry) (h : other ≠ place) :
    (t.put place entry).lookup? other = t.lookup? other := by
  have hb : (other == place) = false := by simpa using h
  simp [lookup?, put, List.lookup_cons, hb]

lemma lookup?_removeFile_of_ne (t : FileTree) (h : other ≠ place) :
    (t.removeFile place).lookup? other = t.lookup? other := by
  by_cases hd : t.lookup? place = some .directory
  · rw [removeFile, hd]
  · rw [lookup?_removeFile hd, if_neg h]

lemma tablesAt_put (hplace : place ≠ []) (entry : FileEntry) :
    (t.put place entry).tablesAt place = entry.tables? := by
  rw [tablesAt, lookup?_put t hplace, if_pos rfl]
  rfl

/-- Every database is one that was there before, or is empty. -/
def Derives (t after : FileTree) : Prop :=
  ∀ place, ∀ db ∈ after.tablesAt place, db = .empty ∨ db ∈ t.tablesAt place

lemma Derives.refl (t : FileTree) : t.Derives t :=
  fun _ _ h => .inr h

lemma Derives.trans (h : t.Derives t') (h' : t'.Derives after) : t.Derives after := by
  intro place db hdb
  rcases h' place db hdb with rfl | hdb
  · exact .inl rfl
  · exact h place db hdb

/-- A file can be put anywhere, and a database where the same or no tables were, or without rows. -/
lemma derives_put {entry : FileEntry}
    (h : ∀ db ∈ entry.tables?, db = .empty ∨ db ∈ t.tablesAt place) :
    t.Derives (t.put place entry) := by
  intro other db hdb
  by_cases hother : other = place
  · subst hother
    by_cases hroot : other = []
    · subst hroot
      cases hdb
    · rw [tablesAt_put hroot] at hdb
      exact h db hdb
  · rw [tablesAt, lookup?_put_of_ne t entry hother] at hdb
    exact .inr hdb

lemma derives_removeFile (t : FileTree) (place : Location) : t.Derives (t.removeFile place) := by
  intro other db hdb
  by_cases hother : other = place
  · subst hother
    by_cases hd : t.lookup? other = some .directory
    · rw [removeFile, hd] at hdb
      exact .inr hdb
    · rw [tablesAt, lookup?_removeFile hd, if_pos rfl] at hdb
      cases hdb
  · rw [tablesAt, lookup?_removeFile_of_ne t hother] at hdb
    exact .inr hdb

/-- The files derive from others, and at a place nothing changed. -/
structure Beside (place : Location) (t after : FileTree) : Prop where
  /-- The same stands at the place. -/
  same : after.lookup? place = t.lookup? place
  /-- The files derive. -/
  derives : t.Derives after

namespace Beside

lemma refl (place : Location) (t : FileTree) : Beside place t t :=
  ⟨rfl, .refl t⟩

lemma trans (h : Beside place t t') (h' : Beside place t' after) : Beside place t after :=
  ⟨h'.same.trans h.same, h.derives.trans h'.derives⟩

lemma tablesAt_eq (h : Beside place t after) : after.tablesAt place = t.tablesAt place := by
  rw [tablesAt, h.same, tablesAt]

end Beside

/-! ### Work -/

section Work

variable {α β : Type} {good good' : α → FileTree → Prop} {bad bad' : FileTree → Prop}

/-- What work on files comes to: it ends with an answer and with files of one kind, or stops at a
fault and leaves files of another kind. -/
def Ensures (act : Work α) (t : FileTree) (good : α → FileTree → Prop) (bad : FileTree → Prop) :
    Prop :=
  match act t with
  | .ok a after => good a after
  | .error _ after => bad after

lemma ensures_bind {x : Work α} {f : α → Work β} {mid : α → FileTree → Prop}
    {good : β → FileTree → Prop} (hx : Ensures x t mid bad)
    (hf : ∀ a t', mid a t' → Ensures (f a) t' good bad) : Ensures (x >>= f) t good bad := by
  simp only [Ensures, bind, EStateM.bind] at hx ⊢
  cases hrun : x t with
  | ok a t' =>
      rw [hrun] at hx
      exact hf a t' hx
  | error e t' =>
      rw [hrun] at hx
      exact hx

lemma Ensures.mono {act : Work α} (h : Ensures act t good bad)
    (hgood : ∀ a t', good a t' → good' a t') (hbad : ∀ t', bad t' → bad' t') :
    Ensures act t good' bad' := by
  simp only [Ensures] at h ⊢
  split
  · next hrun =>
      rw [hrun] at h
      exact hgood _ _ h
  · next hrun =>
      rw [hrun] at h
      exact hbad _ h

lemma Ensures.ok_or_error {act : Work α} (h : Ensures act t good bad) :
    (∃ a after, act t = .ok a after ∧ good a after) ∨
      ∃ fault after, act t = .error fault after ∧ bad after := by
  rw [Ensures] at h
  cases hrun : act t with
  | ok a after =>
      rw [hrun] at h
      exact .inl ⟨a, after, rfl, h⟩
  | error fault after =>
      rw [hrun] at h
      exact .inr ⟨fault, after, rfl, h⟩

/-- Work that stops at no fault. -/
lemma Ensures.exists_ok {act : Work α} (h : Ensures act t good fun _ => False) :
    ∃ a after, act t = .ok a after ∧ good a after :=
  h.ok_or_error.resolve_right fun ⟨_, _, _, hfalse⟩ => hfalse

/-- Work that does not end. -/
lemma Ensures.exists_error {act : Work α} (h : Ensures act t (fun _ _ => False) bad) :
    ∃ fault after, act t = .error fault after ∧ bad after :=
  h.ok_or_error.resolve_left fun ⟨_, _, _, hfalse⟩ => hfalse

/-! #### Single steps -/

section Steps

variable {f : Option FileEntry → Work α} {g : FileTree → Work α} {k : Unit → Work α}

lemma ensures_get (h : Ensures (g t) t good bad) : Ensures (get >>= g) t good bad :=
  h

lemma ensures_entryAt (h : Ensures (f (t.lookup? place)) t good bad) :
    Ensures (entryAt place >>= f) t good bad :=
  h

lemma ensures_putAt {entry : FileEntry} (h : Ensures (k ()) (t.put place entry) good bad) :
    Ensures (putAt place entry >>= k) t good bad :=
  h

lemma ensures_throw {e : AccessFault} (h : bad t) : Ensures (throw e >>= k) t good bad :=
  h

end Steps

/-! #### Quiet work -/

/-- The work changes nothing at a place, and derives the other files. -/
def Quiet (place : Location) (act : Work α) : Prop :=
  ∀ t, Ensures act t (fun _ => Beside place t) (Beside place t)

lemma quiet_pure (a : α) : Quiet place (pure a) :=
  fun t => .refl place t

lemma quiet_throw (e : AccessFault) : Quiet place (throw e : Work α) :=
  fun t => .refl place t

lemma Quiet.bind {x : Work α} {f : α → Work β} (hx : Quiet place x) (hf : ∀ a, Quiet place (f a)) :
    Quiet place (x >>= f) := fun t =>
  ensures_bind (hx t) fun a t' hmid =>
    (hf a t').mono (fun _ _ h => hmid.trans h) fun _ h => hmid.trans h

lemma quiet_get : Quiet place get :=
  fun t => .refl place t

lemma quiet_entryAt (other : Location) : Quiet place (entryAt other) :=
  fun t => .refl place t

lemma quiet_removeAt (h : other ≠ place) : Quiet place (removeAt other) :=
  fun t => ⟨lookup?_removeFile_of_ne t h.symm, derives_removeFile t other⟩

lemma quiet_putAt (h : other ≠ place) {entry : FileEntry} (hentry : entry.tables? = none) :
    Quiet place (putAt other entry) :=
  fun t => ⟨lookup?_put_of_ne t entry h.symm, derives_put fun db hdb => by simp [hentry] at hdb⟩

/-- Quiet work in between keeps what is known of the place. -/
lemma Quiet.ensures {act : Work α} (h : Quiet place act) {start : FileTree}
    (hstart : start.Derives t) :
    Ensures act t (fun _ after => Beside place t after ∧ start.Derives after) start.Derives :=
  (h t).mono (fun _ _ hb => ⟨hb, hstart.trans hb.derives⟩) fun _ hb => hstart.trans hb.derives

end Work

/-! ### Files beside a database -/

section Companions

variable (hplace : place ≠ []) (l : Locator)

lemma beside_ne {ending : String} (h : bytes ending ≠ []) (hplace : place ≠ []) :
    place.beside ending ≠ place := by
  cases place with
  | nil => exact absurd rfl hplace
  | cons name around =>
      intro heq
      exact h (List.append_right_eq_self.mp (List.cons.inj heq).1)

include hplace

lemma journalOf_ne : journalOf place ≠ place :=
  beside_ne (by decide) hplace

lemma logOf_ne : logOf place ≠ place :=
  beside_ne (by decide) hplace

lemma indexOf_ne : indexOf place ≠ place :=
  beside_ne (by decide) hplace

lemma quiet_isInterrupted (blank : Bool) : Quiet place (isInterrupted l place blank) := by
  unfold isInterrupted
  refine quiet_get.bind fun t => ?_
  split
  · exact quiet_pure _
  split
  · dsimp only
    split
    · exact (quiet_removeAt (journalOf_ne hplace)).bind fun _ => quiet_pure _
    · exact quiet_pure _
  · refine (quiet_entryAt _).bind fun entry => ?_
    split
    · exact quiet_throw _
    · exact quiet_pure _
    · exact quiet_pure _

lemma quiet_passJournal : Quiet place (passJournal place) := by
  unfold passJournal
  dsimp only
  split
  · exact (quiet_throw _).bind fun _ => (quiet_entryAt _).bind fun entry => by
      split
      · exact quiet_throw _
      · exact quiet_removeAt (journalOf_ne hplace)
  · refine (quiet_entryAt _).bind fun entry => ?_
    split
    · exact quiet_throw _
    · exact quiet_removeAt (journalOf_ne hplace)

lemma quiet_findLog (blank : Bool) : Quiet place (findLog l place blank) := by
  unfold findLog
  refine quiet_get.bind fun t => ?_
  split
  · exact quiet_pure _
  refine (quiet_entryAt _).bind fun entry => ?_
  split
  · exact quiet_throw _
  · exact (quiet_removeAt (logOf_ne hplace)).bind fun _ => quiet_pure _
  · exact quiet_throw _
  · split
    · exact quiet_pure _
    · exact quiet_throw _

lemma quiet_openIndex : Quiet place (openIndex l place) := by
  unfold openIndex
  dsimp only
  split
  · exact quiet_pure _
  refine (quiet_entryAt _).bind fun entry => ?_
  split
  · exact quiet_pure _
  · exact quiet_pure _
  · exact quiet_throw _
  · exact (quiet_putAt (indexOf_ne hplace) rfl).bind fun _ => quiet_pure _

lemma quiet_openLog : Quiet place (openLog l place) := by
  unfold openLog
  refine (quiet_entryAt _).bind fun entry => ?_
  dsimp only
  split
  · exact (quiet_putAt (logOf_ne hplace) rfl).bind fun _ => quiet_openIndex hplace l
  · exact quiet_openIndex hplace l

lemma quiet_removeLog : Quiet place (removeLog l place) := by
  unfold removeLog
  refine (quiet_removeAt (logOf_ne hplace)).bind fun _ => ?_
  split
  · exact quiet_removeAt (indexOf_ne hplace)
  · exact quiet_pure _

end Companions

lemma quiet_checkLock (l : Locator) : Quiet place (checkLock l place) := by
  unfold checkLock
  refine (quiet_entryAt _).bind fun entry => ?_
  split
  · exact quiet_throw _
  · exact quiet_pure _

/-! ### Opening -/

/-- The place of a database is not the root. -/
lemma ne_nil_of_resolve {path : List UInt8} (h : t.resolve path = some place) : place ≠ [] := by
  rintro rfl
  simp [resolve, Option.bind_eq_some_iff] at h

/-- To open a file makes at most an empty one. -/
lemma ensures_openFile (l : Locator) (t : FileTree) (place : Location) :
    Ensures (openFile l place) t (fun _ => t.Derives) t.Derives := by
  unfold openFile
  refine ensures_entryAt ?_
  split
  · exact .refl t
  · exact .refl t
  · exact .refl t
  · exact .refl t
  · refine ensures_entryAt (ensures_get ?_)
    split
    · exact derives_put nofun
    · exact .refl t
  · exact .refl t

/-- A database is opened at the place to which its path leads, and all files derive. -/
theorem ensures_connect (l : Locator) (t : FileTree) :
    Ensures (connect l) t
      (fun h after => h.locator = l ∧ h.place? = l.file?.bind t.resolve ∧ t.Derives after)
      t.Derives := by
  unfold connect
  split
  · next path hpath =>
      refine ensures_get ?_
      split
      · next place hplace =>
          have hopen : Ensures (do openFile l place; return ⟨l, some place⟩ : Work Handle) t
              (fun h after => h.locator = l ∧ h.place? = l.file?.bind t.resolve ∧ t.Derives after)
              t.Derives :=
            ensures_bind (ensures_openFile l t place) fun _ after hafter =>
              ⟨rfl, by rw [hpath]; exact hplace.symm, hafter⟩
          dsimp only
          split
          · split
            · exact hopen
            · exact ensures_throw (.refl t)
          · exact hopen
      · exact .refl t
  · next hnone =>
      have hfile : l.file? = none := Option.eq_none_iff_forall_ne_some.mpr hnone
      refine ⟨rfl, ?_, .refl t⟩
      rw [hfile]
      rfl

/-! ### Loading -/

/-- To undo a write at most empties the database. -/
lemma ensures_undo (l : Locator) (t : FileTree) (place : Location) :
    Ensures (undo l place) t (fun _ => t.Derives) t.Derives := by
  have hremove : ∀ t', t.Derives t' →
      Ensures (removeAt (journalOf place)) t' (fun _ => t.Derives) t.Derives :=
    fun t' h => h.trans (derives_removeFile t' _)
  unfold undo
  dsimp only
  split
  · exact ensures_throw (.refl t)
  refine ensures_entryAt ?_
  split
  · split
    · exact ensures_putAt (hremove _ (derives_put nofun))
    · exact hremove t (.refl t)
  · exact hremove t (.refl t)

/-- What is known of a database, and that the files derive from those before. -/
def Knows (start : FileTree) (place : Location) (o : Opened) (after : FileTree) : Prop :=
  after.tablesAt place = o.tables? ∧ start.Derives after

lemma tablesAt_of_isBlank (h : isBlank (t.lookup? place) = true) : t.tablesAt place = none := by
  rw [tablesAt]
  cases hentry : t.lookup? place with
  | none => rfl
  | some entry =>
      rw [hentry] at h
      cases entry with
      | file bytes => rfl
      | _ => cases h

lemma ensures_examineFrozen (t : FileTree) (place : Location) :
    Ensures (examineFrozen place) t (Knows t place) t.Derives := by
  unfold examineFrozen
  refine ensures_entryAt ?_
  split
  · next tables? logged hentry => exact ⟨by rw [tablesAt, hentry]; rfl, .refl t⟩
  · split
    · next hblank => exact ⟨tablesAt_of_isBlank hblank, .refl t⟩
    · exact .refl t

section Loading

variable (hplace : place ≠ []) (l : Locator)

include hplace

/-- After an interrupted write was undone the files derive. -/
lemma ensures_recover (t : FileTree) :
    Ensures (recover l place) t (fun _ => t.Derives) t.Derives := by
  unfold recover
  refine ensures_entryAt (ensures_bind ((quiet_isInterrupted hplace l _).ensures (.refl t)) ?_)
  intro interrupted t' ⟨_, h⟩
  split
  · exact (ensures_undo l t' place).mono (fun _ _ => h.trans) fun _ => h.trans
  · exact h

/-- What is seen of the file of a database is what stands there. -/
lemma ensures_inspect {start : FileTree} {blank : Bool} (found fixed : Bool)
    (hblank : blank = true → t.tablesAt place = none) (h : start.Derives t) :
    Ensures (inspect l place blank found fixed) t (Knows start place) start.Derives := by
  unfold inspect
  refine ensures_entryAt ?_
  split
  · next tables? hentry => exact ⟨by rw [tablesAt, hentry]; rfl, h⟩
  · next tables? hentry =>
      split
      · refine ensures_bind ((quiet_openLog hplace l).ensures h) fun fixed t' ⟨hbeside, h'⟩ => ?_
        refine ⟨?_, h'⟩
        rw [hbeside.tablesAt_eq, tablesAt, hentry]
        rfl
      · exact h
  · split
    · next hb => exact ⟨hblank hb, h⟩
    · dsimp only
      split
      · exact ensures_bind ((quiet_removeLog hplace l).ensures h) fun _ _ ⟨_, h'⟩ => h'
      · exact h

/-- What is seen of a database is what stands at its place, and all files derive. -/
lemma ensures_examine (t : FileTree) : Ensures (examine l place) t (Knows t place) t.Derives := by
  unfold examine
  refine ensures_bind ((quiet_checkLock l).ensures (.refl t)) fun _ t₁ ⟨_, h₁⟩ => ?_
  refine ensures_bind
    ((ensures_recover hplace l t₁).mono (fun _ _ => h₁.trans) fun _ => h₁.trans) fun _ t₂ h₂ => ?_
  refine ensures_entryAt ?_
  refine ensures_bind ((quiet_findLog hplace l _).ensures h₂) fun found t₃ ⟨hfound, h₃⟩ => ?_
  have hblank : isBlank (t₂.lookup? place) = true → t₃.tablesAt place = none := fun hb =>
    hfound.tablesAt_eq.trans (tablesAt_of_isBlank hb)
  dsimp only
  split
  · refine ensures_bind ((quiet_openIndex hplace l).ensures h₃) fun fixed t₄ ⟨hfixed, h₄⟩ => ?_
    exact ensures_inspect hplace l found fixed (fun hb => hfixed.tablesAt_eq.trans (hblank hb)) h₄
  · exact ensures_inspect hplace l found false hblank h₃

/-- To begin a log changes no tables. -/
lemma ensures_keepLog {start : FileTree} {o : Opened} (h : Knows start place o t) :
    Ensures (keepLog l place o) t
      (Knows start place) start.Derives := by
  unfold keepLog
  split
  · exact h
  · dsimp only
    split
    · exact ensures_throw h.2
    · refine ensures_bind ((quiet_passJournal hplace).ensures h.2) fun _ t' ⟨hbeside, h'⟩ => ?_
      have htables : t'.tablesAt place = o.tables? := hbeside.tablesAt_eq.trans h.1
      have hput : start.Derives (t'.put place (.database o.tables? true)) := by
        refine h'.trans (derives_put fun db hdb => .inr ?_)
        rw [htables]
        exact hdb
      refine ensures_putAt (ensures_bind ((quiet_openLog hplace l).ensures hput) ?_)
      intro fixed after ⟨hlog, hafter⟩
      exact ⟨hlog.tablesAt_eq.trans (tablesAt_put hplace _), hafter⟩

/-- Tables that are missing are made, without rows. -/
lemma ensures_setUp {start : FileTree} {o : Opened} (h : Knows start place o t) :
    Ensures (setUp l place o) t
      (fun db after => after.tablesAt place = some db ∧ start.Derives after) start.Derives := by
  unfold setUp
  split
  · next db hdb => exact ⟨h.1.trans hdb, h.2⟩
  · dsimp only
    have hmade : ∀ t', start.Derives t' →
        Ensures (do putAt place (.database (some .empty) o.logged); return .empty : Work Database)
          t' (fun db after => after.tablesAt place = some db ∧ start.Derives after)
          start.Derives := by
      refine fun t' h' => ensures_putAt ⟨tablesAt_put hplace _, h'.trans (derives_put ?_)⟩
      rintro _ ⟨⟩
      exact .inl rfl
    split
    · exact ensures_throw h.2
    · split
      · exact ensures_putAt (hmade _ (h.2.trans (derives_put nofun)))
      · exact ensures_bind ((quiet_passJournal hplace).ensures h.2) fun _ t' ⟨_, h'⟩ => hmade t' h'

/-- The tables of a database of which something is known stand at its place. -/
lemma ensures_provide {start : FileTree} {o : Opened} (h : Knows start place o t) :
    Ensures (provide l place o) t
      (fun opened after => after.tablesAt place = some opened.1 ∧ start.Derives after)
      start.Derives := by
  unfold provide
  refine ensures_bind (ensures_keepLog hplace l h) fun o' t₁ h₁ => ?_
  exact ensures_bind (ensures_setUp hplace l h₁) fun db after hafter => hafter

end Loading

/-- The tables that are read stand at the place of the database, if it has a file; in memory they
have no rows. All files derive. -/
theorem ensures_load {h : Handle} (hplace : ∀ place ∈ h.place?, place ≠ []) (t : FileTree) :
    Ensures (load h) t
      (fun opened after => t.Derives after ∧
        (∀ place ∈ h.place?, after.tablesAt place = some opened.1) ∧
        (h.place? = none → opened.1 = .empty))
      t.Derives := by
  unfold load
  dsimp only
  split
  · next place hfile =>
      have hne : place ≠ [] := hplace place hfile
      have hprovide : ∀ t' o, Knows t place o t' → Ensures (provide h.locator place o) t'
          (fun opened after => t.Derives after ∧
            (∀ place ∈ h.place?, after.tablesAt place = some opened.1) ∧
            (h.place? = none → opened.1 = .empty)) t.Derives := by
        refine fun t' o ho => (ensures_provide hne h.locator ho).mono ?_ fun _ => id
        intro opened after ⟨htables, hafter⟩
        refine ⟨hafter, fun other hother => ?_, fun hnone => ?_⟩
        · cases hfile.symm.trans hother
          exact htables
        · cases hfile.symm.trans hnone
      split
      · exact ensures_bind (ensures_examineFrozen t place) fun o t' ho => hprovide t' o ho
      · exact ensures_bind (ensures_examine hne h.locator t) fun o t' ho => hprovide t' o ho
  · next hnone =>
      split
      · exact .refl t
      · refine ⟨.refl t, fun place hfile => absurd hfile (hnone place), fun _ => rfl⟩

/-! ### Closing -/

/-- What is left of the files after closing, whatever happened: with the right to write the database
holds the given tables, and no other database changed. -/
structure Closed (h : Handle) (db : Database) (writing : Writing) (t after : FileTree) : Prop where
  /-- The given tables stand at the place of a database that could be written. -/
  written : writing = .allowed → ∀ place ∈ h.place?, (t.tablesAt place).isSome →
    after.tablesAt place = some db
  /-- Without the right to write nothing changed. -/
  unwritten : writing ≠ .allowed → after = t
  /-- Every database holds the given tables, or was there before. -/
  databases : ∀ place, ∀ left ∈ after.tablesAt place,
    (left = db ∧ place ∈ h.place?) ∨ left = .empty ∨ left ∈ t.tablesAt place

lemma closed_self {h : Handle} {db : Database} {writing : Writing}
    (hnone : writing = .allowed → ∀ place ∈ h.place?, t.tablesAt place = none) :
    Closed h db writing t t where
  written hw place hfile htables := by
    rw [hnone hw place hfile] at htables
    cases htables
  unwritten _ := rfl
  databases _ _ hleft := .inr (.inr hleft)

/-- What happens beside a database after its tables were written does not matter. -/
lemma closed_of_beside {h : Handle} {db : Database} (hne : place ≠ [])
    (hfile : h.place? = some place) (logged : Bool)
    (hbeside : Beside place (t.put place (.database (some db) logged)) after) :
    Closed h db .allowed t after where
  written _ other hother _ := by
    cases hfile.symm.trans hother
    exact hbeside.tablesAt_eq.trans (tablesAt_put hne _)
  unwritten hw := absurd rfl hw
  databases other left hleft := by
    rcases hbeside.derives other left hleft with rfl | hput
    · exact .inr (.inl rfl)
    · by_cases hother : other = place
      · subst hother
        rw [tablesAt_put hne] at hput
        cases hput
        exact .inl ⟨rfl, hfile⟩
      · rw [tablesAt, lookup?_put_of_ne t _ hother] at hput
        exact .inr (.inr hput)

theorem ensures_close {h : Handle} (hplace : ∀ place ∈ h.place?, place ≠ []) (db : Database)
    (writing : Writing) (t : FileTree) :
    Ensures (close h db writing) t (fun _ => Closed h db writing t) (Closed h db writing t) := by
  unfold close
  split
  · next hw =>
      subst hw
      unfold save
      split
      · next place hfile =>
          have hne : place ≠ [] := hplace place hfile
          refine ensures_entryAt ?_
          split
          · next tables? logged hentry =>
              have hquiet : ∀ act : Work Unit, Quiet place act →
                  Ensures act (t.put place (.database (some db) logged))
                    (fun _ => Closed h db .allowed t) (Closed h db .allowed t) := fun act hact =>
                (hact _).mono (fun _ _ hb => closed_of_beside hne hfile logged hb) fun _ hb =>
                  closed_of_beside hne hfile logged hb
              refine ensures_putAt ?_
              split
              · exact hquiet _ (quiet_removeLog hne h.locator)
              · split
                · exact hquiet _ (quiet_passJournal hne)
                · exact hquiet _ (quiet_pure ())
          · next hentry =>
              refine closed_self fun _ other hother => ?_
              cases hfile.symm.trans hother
              rw [tablesAt]
              cases hentry' : t.lookup? place with
              | none => rfl
              | some entry =>
                  cases entry with
                  | database tables? logged => exact absurd hentry' (hentry tables? logged)
                  | _ => rfl
      · next hnone => exact closed_self fun _ place hfile => absurd hfile (hnone place)
  · next hw => exact closed_self fun hallowed => absurd hallowed hw

/-! ### Directories -/

/-- To make directories makes no database. -/
lemma derives_extend (made : Bool) (steps : List PathStep) :
    t.Derives (t.extend place made steps).2 := by
  induction steps generalizing t place made with
  | nil => exact .refl t
  | cons step rest ih =>
      unfold extend
      split
      · exact .refl t
      · split
        · exact ih made
        · exact .refl t
        · split
          · exact .refl t
          · refine Derives.trans ?_ (ih true)
            exact derives_put nofun

lemma derives_makeDirectories (t : FileTree) (text : String) :
    t.Derives (t.makeDirectories text).2 := by
  unfold makeDirectories
  split
  · exact .refl t
  · split
    · exact .refl t
    · exact derives_extend false _

end FileTree

end FilterStore
