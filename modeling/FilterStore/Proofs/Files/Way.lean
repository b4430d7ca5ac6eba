import FilterStore.Proofs.Files.Databases

/-!
Paths whose directories are there.

* **Names only.** `Location.after` says where steps lead by their names. A path that can be
  followed leads there (`follow_eq_ok`), and so does the path of a database that can be reached
  (`after_of_reached`).
* **Directories.** A tree `Keeps` the directories of another one. A place `Stands` if it and all
  that is around it are directories, and a path is `Walked` if every step leads to a directory; both
  last while directories are kept.
* **Walked paths.** On a walked path following does not fail (`follow_of_walked`), and whether a
  database can be reached behind it depends on names only (`foldlM_reach_eq`).
* **Making directories.** What was made once is walked (`walked_of_extend`), so that to make it
  again changes nothing (`extend_of_walked`), and what could not be made cannot be made later
  (`extend_of_refused`).
-/

namespace FilterStore

open Text

/-! ### Names only -/

namespace PathStep

/-- Where a step leads by its name. -/
def next (place : Location) : PathStep → Location
  | .stay => place
  | .up => place.tail
  | .into name => name :: place

lemma next_of_lead {place led : Location} {step : PathStep} (h : step.lead place = .ok led) :
    led = step.next place := by
  cases step with
  | stay | up => exact (Except.ok.inj h).symm
  | into name =>
      rw [lead] at h
      split_ifs at h
      exact (Except.ok.inj h).symm

end PathStep

namespace Location

/-- Where steps lead by their names. -/
def after (place : Location) (steps : List PathStep) : Location :=
  steps.foldl PathStep.next place

/-- No name on the way to a place is too long. -/
def Named (place : Location) : Prop :=
  ∀ name ∈ place, name.length ≤ PathStep.longestName

instance (place : Location) : Decidable place.Named :=
  inferInstanceAs (Decidable (∀ _ ∈ _, _))

lemma named_cons {name : FileName} {place : Location} :
    Named (name :: place) ↔ name.length ≤ PathStep.longestName ∧ place.Named :=
  List.forall_mem_cons

end Location

namespace FileTree

variable {t t' after : FileTree} {place around led : Location} {step : PathStep}
  {steps more : List PathStep}

/-- A path that can be followed leads where its names lead. -/
lemma follow_eq_ok (h : t.follow place steps = .ok led) : led = place.after steps := by
  induction steps generalizing place with
  | nil => exact (Except.ok.inj h).symm
  | cons step rest ih =>
      rw [follow] at h
      split at h
      · cases h
      · split at h
        · cases h
        · next next hlead =>
            rw [Location.after, List.foldl_cons, ← PathStep.next_of_lead hlead]
            exact ih h
      · cases h

/-! ### Directories -/

/-- The directories of a tree are directories in another one, which is seen from the same place and
in which the same directories take nothing new. -/
structure Keeps (t after : FileTree) : Prop where
  /-- Directories stay. -/
  directories : ∀ place, t.lookup? place = some .directory → after.lookup? place = some .directory
  /-- Relative paths start at the same place. -/
  directory : after.directory = t.directory
  /-- The same directories take nothing new. -/
  fixed : after.fixed = t.fixed

namespace Keeps

lemma refl (t : FileTree) : t.Keeps t :=
  ⟨fun _ h => h, rfl, rfl⟩

lemma trans (h : t.Keeps t') (h' : t'.Keeps after) : t.Keeps after :=
  ⟨fun place hplace => h'.directories place (h.directories place hplace),
    h'.directory.trans h.directory, h'.fixed.trans h.fixed⟩

lemma start (h : t.Keeps after) (path : Path) : after.start path = t.start path := by
  rw [FileTree.start, FileTree.start, h.directory]

/-- Something may be put where there is no directory. -/
lemma put (h : t.lookup? place ≠ some .directory) (entry : FileEntry) :
    t.Keeps (t.put place entry) where
  directories other hother := by
    have hne : other ≠ place := by
      rintro rfl
      exact h hother
    rw [lookup?_put_of_ne t entry hne]
    exact hother
  directory := rfl
  fixed := rfl

/-- Directories may be put anywhere. -/
lemma putDirectory (t : FileTree) (place : Location) : t.Keeps (t.put place .directory) where
  directories other hother := by
    by_cases heq : other = place
    · subst heq
      by_cases hroot : other = []
      · rw [lookup?, if_pos hroot]
      · rw [lookup?_put t hroot, if_pos rfl]
    · rw [lookup?_put_of_ne t _ heq]
      exact hother
  directory := rfl
  fixed := rfl

/-- Files may be removed. -/
lemma removeFile (t : FileTree) (place : Location) : t.Keeps (t.removeFile place) := by
  by_cases hd : t.lookup? place = some .directory
  · rw [FileTree.removeFile, hd]
    exact refl t
  · refine ⟨fun other hother => ?_, ?_, ?_⟩
    · have hne : other ≠ place := by
        rintro rfl
        exact hd hother
      rw [lookup?_removeFile_of_ne t hne]
      exact hother
    · rw [FileTree.removeFile]
      split <;> rfl
    · rw [FileTree.removeFile]
      split <;> rfl

end Keeps

/-- A place and all that is around it are directories. -/
def Stands (t : FileTree) (place : Location) : Prop :=
  ∀ around, around <:+ place → t.lookup? around = some .directory

namespace Stands

lemma keeps (h : t.Stands place) (hkeeps : t.Keeps after) : after.Stands place :=
  fun around haround => hkeeps.directories around (h around haround)

lemma root (t : FileTree) : t.Stands [] := by
  intro around haround
  rw [List.suffix_nil.mp haround, lookup?, if_pos rfl]

lemma tail (h : t.Stands place) : t.Stands place.tail :=
  fun around haround => h around (haround.trans (List.tail_suffix place))

/-- A directory in a place that stands. -/
lemma cons {name : FileName} (h : t.Stands place)
    (hname : t.lookup? (name :: place) = some .directory) : t.Stands (name :: place) := by
  intro around haround
  rcases List.suffix_cons_iff.mp haround with rfl | haround
  · exact hname
  · exact h around haround

/-- Where a step leads to a directory. -/
lemma next (h : t.Stands place) (hnext : t.lookup? (step.next place) = some .directory) :
    t.Stands (step.next place) := by
  cases step with
  | stay => exact h
  | up => exact h.tail
  | into name => exact h.cons hnext

lemma start (h : t.Stands t.directory) (path : Path) : t.Stands (t.start path) := by
  rw [FileTree.start]
  split
  · exact root t
  · exact h

end Stands

/-- Every step of a path leads to a directory. -/
def Walked (t : FileTree) : Location → List PathStep → Prop
  | _, [] => True
  | place, step :: rest =>
    step.lead place = .ok (step.next place) ∧
      t.lookup? (step.next place) = some .directory ∧ t.Walked (step.next place) rest

lemma Walked.keeps (h : t.Walked place steps) (hkeeps : t.Keeps after) :
    after.Walked place steps := by
  induction steps generalizing place with
  | nil => trivial
  | cons step rest ih => exact ⟨h.1, hkeeps.directories _ h.2.1, ih h.2.2⟩

/-- A walked path leads to a place that stands. -/
lemma Stands.walk (h : t.Stands place) (hsteps : t.Walked place steps) :
    t.Stands (place.after steps) := by
  induction steps generalizing place with
  | nil => exact h
  | cons step rest ih => exact ih (h.next hsteps.2.1) hsteps.2.2

/-! ### Walked paths -/

/-- A walked path is followed, and then what is behind it. -/
lemma follow_of_walked (h : t.Stands place) (hsteps : t.Walked place steps) :
    t.follow place (steps ++ more) = t.follow (place.after steps) more := by
  induction steps generalizing place with
  | nil => rfl
  | cons step rest ih =>
      have hplace : t.lookup? place = some .directory := h place List.suffix_rfl
      rw [List.cons_append, follow, hplace]
      simp only [hsteps.1]
      exact ih (h.next hsteps.2.1) hsteps.2.2

/-- From the root a place that stands is followed by its names, unless one of them is too long. -/
lemma follow_names (h : t.Stands place) :
    t.follow [] (place.reverse.map .into ++ more) =
      if place.Named then t.follow place more else .error .nameTooLong := by
  induction place generalizing more with
  | nil => simp [Location.Named]
  | cons name around ih =>
      have haround : t.Stands around := h.tail
      have hplace : t.lookup? around = some .directory := haround around List.suffix_rfl
      rw [List.reverse_cons, List.map_append, List.append_assoc, ih haround]
      simp only [List.map_cons, List.map_nil, List.cons_append, List.nil_append, follow, hplace,
        PathStep.lead, Location.named_cons]
      by_cases hname : name.length ≤ PathStep.longestName
      · simp only [hname, if_true, true_and]
      · simp only [hname, if_false, false_and, ite_self]

/-- Where a step of the path of a database leads from a place that stands. -/
def reached (place : Location) : PathStep → Option Location
  | .stay => some place
  | .up => some place.tail
  | .into name =>
    let next : Location := name :: place
    if reachBound ≤ next.width then none else if next.Named then some next else none

lemma next_of_reached (h : reached place step = some led) : led = step.next place := by
  cases step with
  | stay | up => exact (Option.some.inj h).symm
  | into name =>
      simp only [reached] at h
      split_ifs at h
      exact (Option.some.inj h).symm

lemma reach_eq (h : t.Stands place) (step : PathStep) :
    t.reach place step = reached place step := by
  cases step with
  | stay | up => rfl
  | into name =>
      have hplace : t.lookup? place = some .directory := h place List.suffix_rfl
      simp only [reach, reached, List.reverse_cons, List.map_append, List.map_cons, List.map_nil,
        follow_names h, follow, hplace, PathStep.lead, Location.named_cons]
      by_cases hnamed : place.Named
      · by_cases hname : name.length ≤ PathStep.longestName
        · simp only [hnamed, hname, if_true, and_self]
        · simp only [hnamed, hname, if_true, if_false, false_and]
      · simp only [hnamed, if_false, and_false]

/-- Behind a walked path it depends on names only whether a database can be reached. -/
lemma foldlM_reach_eq (h : t.Stands place) (hsteps : t.Walked place steps) (name : FileName) :
    (steps ++ [PathStep.into name]).foldlM t.reach place
      = (steps ++ [PathStep.into name]).foldlM reached place := by
  induction steps generalizing place with
  | nil => rw [List.nil_append, List.foldlM_cons, List.foldlM_cons, reach_eq h]; rfl
  | cons step rest ih =>
      rw [List.cons_append, List.foldlM_cons, List.foldlM_cons, reach_eq h]
      cases hled : reached place step with
      | none => rfl
      | some led =>
          rw [next_of_reached hled]
          exact ih (h.next hsteps.2.1) hsteps.2.2

/-- Where the path of a database leads it leads by its names. -/
lemma after_of_reached (h : steps.foldlM reached place = some led) : led = place.after steps := by
  induction steps generalizing place with
  | nil => exact (Option.some.inj h).symm
  | cons step rest ih =>
      rw [List.foldlM_cons] at h
      obtain ⟨next, hnext, hrest⟩ := Option.bind_eq_some_iff.mp h
      rw [next_of_reached hnext] at hrest
      exact ih hrest

/-! ### Making directories -/

/-- Where directories are made, each place holds what it held, or a directory. -/
lemma lookup?_extend (made : Bool) (other : Location) :
    (t.extend place made steps).2.lookup? other = t.lookup? other ∨
      (t.extend place made steps).2.lookup? other = some .directory := by
  induction steps generalizing t place made with
  | nil => exact .inl rfl
  | cons step rest ih =>
      unfold extend
      split
      · exact .inl rfl
      · next next hlead =>
          split
          · exact ih made
          · exact .inl rfl
          · next hnone =>
              split
              · exact .inl rfl
              · have hroot : next ≠ [] := by
                  rintro rfl
                  cases hnone
                rcases ih (t := t.put next .directory) true with hsame | hmade
                · rw [hsame, lookup?_put t hroot]
                  split
                  · exact .inr rfl
                  · exact .inl rfl
                · exact .inr hmade

lemma keeps_extend (made : Bool) : t.Keeps (t.extend place made steps).2 := by
  induction steps generalizing t place made with
  | nil => exact .refl t
  | cons step rest ih =>
      unfold extend
      split
      · exact .refl t
      · split
        · exact ih made
        · exact .refl t
        · split
          · exact .refl t
          · exact (Keeps.putDirectory t _).trans (ih true)

lemma keeps_of_extend {made : Bool} {result : Except FileFault Unit}
    (h : t.extend place made steps = (result, after)) : t.Keeps after := by
  have hkeeps : t.Keeps (t.extend place made steps).2 := keeps_extend made
  rw [h] at hkeeps
  exact hkeeps

/-- To make directories that are there changes nothing. -/
lemma extend_of_walked (h : t.Walked place steps) (made : Bool) :
    t.extend place made steps = (.ok (), t) := by
  induction steps generalizing place made with
  | nil => rfl
  | cons step rest ih =>
      obtain ⟨hlead, hnext, hrest⟩ := h
      simp only [extend, hlead, hnext]
      exact ih hrest made

/-- Directories that were made are there. -/
lemma walked_of_extend {made : Bool} (h : t.extend place made steps = (.ok (), after)) :
    after.Walked place steps := by
  have hkeeps := keeps_of_extend h
  induction steps generalizing t place made with
  | nil => trivial
  | cons step rest ih =>
      unfold extend at h
      split at h
      · cases h
      · next next hlead =>
          obtain rfl := PathStep.next_of_lead hlead
          split at h
          · next hnext => exact ⟨hlead, hkeeps.directories _ hnext, ih h hkeeps⟩
          · cases h
          · next hnone =>
              split at h
              · cases h
              · have hroot : step.next place ≠ [] := by
                  intro hroot
                  rw [hroot] at hnone
                  cases hnone
                have hkeeps' := keeps_of_extend h
                have hmade : (t.put (step.next place) .directory).lookup? (step.next place)
                    = some .directory := by
                  rw [lookup?_put t hroot, if_pos rfl]
                exact ⟨hlead, hkeeps'.directories _ hmade, ih h hkeeps'⟩

/-- Directories that could not be made cannot be made later, and trying again changes nothing. -/
lemma extend_of_refused {made : Bool} {fault : FileFault}
    (h : t.extend place made steps = (.error fault, after)) (made' : Bool) :
    ∃ fault, after.extend place made' steps = (.error fault, after) := by
  induction steps generalizing t place made made' with
  | nil => cases h
  | cons step rest ih =>
      unfold extend at h
      split at h
      · next refusal hlead =>
          obtain rfl := (Prod.mk.inj h).2
          exact ⟨refusal, by simp only [extend, hlead]⟩
      · next next hlead =>
          split at h
          · next hnext =>
              have hnext' := (keeps_of_extend h).directories _ hnext
              simp only [extend, hlead, hnext']
              exact ih h made'
          · next hentry =>
              obtain rfl := (Prod.mk.inj h).2
              exact ⟨blocked made' rest, by simp only [extend, hlead, hentry]⟩
          · next hnone =>
              split at h
              · next hrefused =>
                  obtain rfl := (Prod.mk.inj h).2
                  exact ⟨.notFound, by simp only [extend, hlead, hnone, if_pos hrefused]⟩
              · have hroot : next ≠ [] := by
                  rintro rfl
                  cases hnone
                have hmade : (t.put next .directory).lookup? next = some .directory := by
                  rw [lookup?_put t hroot, if_pos rfl]
                have hnext' := (keeps_of_extend h).directories _ hmade
                simp only [extend, hlead, hnext']
                exact ih h made'

end FileTree

end FilterStore
