import FilterStore.Proofs.Files.DataDirectory

/-!
What is done to the files beside the database of a plain path.

* **Places.** Files beside a database have places of their own (`beside_ne_beside`).
* **Runs.** Each part of loading a database is run on the files that it may find: the journal and
  the log of a blank file are cleared away, unless they are directories (`run_recover_blank`,
  `run_findLog_blank`, `run_passJournal`), and the log and its index are made where they are missing
  (`run_openLog`, `run_openIndex`).
-/

namespace FilterStore

open Text

namespace FileTree

variable {t t' : FileTree} {place : Location} {path : String}

/-! ### Single steps -/

section Steps

variable {α β : Type} {x : Work α} {f : α → Work β} {a : α} {fault : AccessFault}

lemma run_bind_ok (h : x t = .ok a t') : (x >>= f) t = f a t' := by
  simp only [bind, EStateM.bind, h]

lemma run_bind_error (h : x t = .error fault t') : (x >>= f) t = .error fault t' := by
  simp only [bind, EStateM.bind, h]

lemma run_get (g : FileTree → Work β) (t : FileTree) : (get >>= g) t = g t t := rfl

lemma run_entryAt (place : Location) (g : Option FileEntry → Work β) (t : FileTree) :
    (entryAt place >>= g) t = g (t.lookup? place) t := rfl

end Steps

/-! ### Companions -/

/-- Files beside a database with different endings have different places. -/
lemma beside_ne_beside {a b : String} (h : bytes a ≠ bytes b) (hplace : place ≠ []) :
    place.beside a ≠ place.beside b := by
  cases place with
  | nil => exact absurd rfl hplace
  | cons name around =>
      intro heq
      exact h (List.append_cancel_left (List.cons.inj heq).1)

lemma beside_ne_nil {a : String} (hplace : place ≠ []) : place.beside a ≠ [] := by
  cases place with
  | nil => exact absurd rfl hplace
  | cons name around => exact List.cons_ne_nil _ _

lemma journalOf_ne_logOf (hplace : place ≠ []) : journalOf place ≠ logOf place :=
  beside_ne_beside (by decide) hplace

lemma indexOf_ne_logOf (hplace : place ≠ []) : indexOf place ≠ logOf place :=
  beside_ne_beside (by decide) hplace

lemma indexOf_ne_journalOf (hplace : place ≠ []) : indexOf place ≠ journalOf place :=
  beside_ne_beside (by decide) hplace

/-- The name of the journal of a database is not too long. -/
def JournalFits (place : Location) : Prop :=
  (journalOf place).head?.any (PathStep.longestName < ·.length) = false

/-- The tree without the file at a place, if it is not empty. -/
def cleared (t : FileTree) (place : Location) : FileTree :=
  if t.isFilled place then t.removeFile place else t

lemma keeps_cleared (t : FileTree) (place : Location) : t.Keeps (t.cleared place) := by
  rw [cleared]
  split
  · exact .removeFile t place
  · exact .refl t

lemma lookup?_cleared_of_ne {other : Location} (t : FileTree) (h : other ≠ place) :
    (t.cleared place).lookup? other = t.lookup? other := by
  rw [cleared]
  split
  · exact lookup?_removeFile_of_ne t h
  · rfl

/-- A directory is not cleared, and nothing becomes one. -/
lemma lookup?_cleared_eq_directory_iff (t : FileTree) (place : Location) :
    (t.cleared place).lookup? place = some .directory ↔ t.lookup? place = some .directory := by
  refine ⟨fun h => ?_, (keeps_cleared t place).directories place⟩
  by_contra hd
  rw [cleared] at h
  split at h
  · rw [lookup?_removeFile hd, if_pos rfl] at h
    cases h
  · exact hd h

/-- What is left at a place that was cleared counts as nothing. -/
lemma isFilled_cleared (h : t.lookup? place ≠ some .directory) :
    (t.cleared place).isFilled place = false := by
  rw [cleared]
  split
  · rw [isFilled, lookup?_removeFile h, if_pos rfl]
  · next hfilled => exact Bool.eq_false_iff.mpr hfilled

lemma isFilled_congr {u : FileTree} (h : u.lookup? place = t.lookup? place) :
    u.isFilled place = t.isFilled place := by
  rw [isFilled, isFilled, h]

/-- What does not count is no directory. -/
lemma lookup?_ne_directory (h : t.isFilled place = false) : t.lookup? place ≠ some .directory := by
  intro hd
  rw [isFilled, hd] at h
  cases h

/-! ### The parts of loading -/

section Plain

lemma run_checkLock (path : String) (place : Location) (t : FileTree) :
    checkLock (.ofPath path) place t = .ok () t :=
  rfl

/-- Beside a blank file a journal is removed. -/
lemma run_recover_blank (h : isBlank (t.lookup? place) = true) :
    recover (.ofPath path) place t = .ok () (t.cleared (journalOf place)) := by
  have hrun : isInterrupted (.ofPath path) place true t
      = .ok false (t.cleared (journalOf place)) := by
    rw [cleared, isInterrupted, run_get]
    cases t.isFilled (journalOf place) <;> rfl
  rw [recover, run_entryAt, h, run_bind_ok hrun]
  rfl

/-- Without a journal there is nothing to undo. -/
lemma run_recover_of_not_filled (h : t.isFilled (journalOf place) = false) :
    recover (.ofPath path) place t = .ok () t := by
  have hrun : ∀ blank, isInterrupted (.ofPath path) place blank t = .ok false t := by
    intro blank
    rw [isInterrupted, run_get, h]
    rfl
  rw [recover, run_entryAt, run_bind_ok (hrun _)]
  rfl

/-- Beside a blank file a log is removed. -/
lemma run_findLog_blank (h : t.lookup? (logOf place) ≠ some .directory) :
    findLog (.ofPath path) place true t = .ok false (t.cleared (logOf place)) := by
  rw [cleared, findLog, run_get]
  cases t.isFilled (logOf place) with
  | false => rfl
  | true =>
      change (entryAt (logOf place) >>= _) t = _
      rw [run_entryAt]
      rcases hentry : t.lookup? (logOf place) with _ | entry
      · rfl
      · cases entry with
        | directory => exact absurd hentry h
        | _ => rfl

/-- A directory in the place of the log is not removed. -/
lemma run_findLog_directory (h : t.lookup? (logOf place) = some .directory) :
    findLog (.ofPath path) place true t = .error .unremovable t := by
  have hfilled : t.isFilled (logOf place) = true := by rw [isFilled, h]
  rw [findLog, run_get, hfilled]
  change (entryAt (logOf place) >>= _) t = _
  rw [run_entryAt, h]
  rfl

/-- Without a log none is found. -/
lemma run_findLog_of_not_filled (h : t.isFilled (logOf place) = false) (blank : Bool) :
    findLog (.ofPath path) place blank t = .ok false t := by
  rw [findLog, run_get, h]
  rfl

variable (hname : JournalFits place)

include hname in
/-- A journal makes way for a write. -/
lemma run_passJournal (h : t.lookup? (journalOf place) ≠ some .directory) :
    passJournal place t = .ok () (t.removeFile (journalOf place)) := by
  rw [passJournal, hname]
  change (entryAt (journalOf place) >>= _) t = _
  rw [run_entryAt]
  rcases hentry : t.lookup? (journalOf place) with _ | entry
  · rfl
  · cases entry with
    | directory => exact absurd hentry h
    | _ => rfl

include hname in
/-- A directory in the place of the journal does not. -/
lemma run_passJournal_directory (h : t.lookup? (journalOf place) = some .directory) :
    passJournal place t = .error .cannotOpenBeside t := by
  rw [passJournal, hname]
  change (entryAt (journalOf place) >>= _) t = _
  rw [run_entryAt, h]
  rfl

/-- The tree with an empty log, unless there is something in its place. -/
def withLog (t : FileTree) (place : Location) : FileTree :=
  if (t.lookup? (logOf place)).isNone then t.put (logOf place) (.file .empty) else t

lemma lookup?_withLog_of_ne {other : Location} (h : other ≠ logOf place) (t : FileTree) :
    (t.withLog place).lookup? other = t.lookup? other := by
  rw [withLog]
  split
  · exact lookup?_put_of_ne t _ h
  · rfl

lemma keeps_withLog (t : FileTree) (place : Location) : t.Keeps (t.withLog place) := by
  rw [withLog]
  split
  · next hnone =>
      refine .put (fun hd => ?_) _
      rw [hd] at hnone
      cases hnone
  · exact .refl t

lemma isFilled_withLog (hplace : place ≠ []) (h : t.isFilled (logOf place) = false) :
    (t.withLog place).isFilled (logOf place) = false := by
  rw [withLog]
  split
  · have hroot : logOf place ≠ [] := beside_ne_nil hplace
    rw [isFilled, lookup?_put t hroot, if_pos rfl]
    rfl
  · exact h

/-- The log is made where it is missing, before the index is opened. -/
lemma run_openLog (t : FileTree) :
    openLog (.ofPath path) place t = openIndex (.ofPath path) place (t.withLog place) := by
  rw [withLog, openLog, run_entryAt]
  cases (t.lookup? (logOf place)).isNone <;> rfl

/-- An index is made anew. -/
lemma run_openIndex (h : t.lookup? (indexOf place) ≠ some .directory) :
    openIndex (.ofPath path) place t = .ok false (t.put (indexOf place) (.file indexMark)) := by
  change (entryAt (indexOf place) >>= _) t = _
  rw [run_entryAt]
  rcases hentry : t.lookup? (indexOf place) with _ | entry
  · rfl
  · cases entry with
    | directory => exact absurd hentry h
    | _ => rfl

/-- A directory in the place of the index cannot be written. -/
lemma run_openIndex_directory (h : t.lookup? (indexOf place) = some .directory) :
    openIndex (.ofPath path) place t = .ok true t := by
  change (entryAt (indexOf place) >>= _) t = _
  rw [run_entryAt, h]
  rfl

end Plain

end FileTree

end FilterStore
