import FilterStore.Proofs.Files.Way
import FilterStore.Settings

/-!
Where the database of a data directory is.

* **Paths.** The path of the database is that of the data directory with one step more
  (`Settings.ofBytes_databasePath`), and `databasePlace` is where it leads by its names.
* **Directories.** A data directory is `Prepared` if all directories on its way are there. One that
  was made is so from then on (`prepared_of_makeDirectories`), and one that could not be made cannot
  be made later (`makeDirectories_of_refused`).
* **The database.** In a prepared directory the database is reached at its place or never
  (`Prepared.place_of_resolve`, `Prepared.resolve_keeps`), and it is found if something is there and
  the path is not too long (`Prepared.isPresent_eq`).
-/

namespace FilterStore

open Text

/-! ### The path of the database -/

/-- The pieces of two sequences with the separator between them. -/
lemma Text.pieces_append (separator : UInt8) (xs ys : List UInt8) :
    pieces separator (xs ++ separator :: ys) = pieces separator xs ++ pieces separator ys := by
  induction xs with
  | nil => simp [pieces]
  | cons b xs ih =>
      by_cases hb : b = separator
      · simp [pieces, hb, ih]
      · cases hp : pieces separator xs with
        | nil => exact absurd hp (pieces_ne_nil separator xs)
        | cons piece rest => simp [pieces, hb, ih, hp]

lemma Text.bytes_append (s t : String) : bytes (s ++ t) = bytes s ++ bytes t := by
  simp [bytes]

lemma Text.bytes_eq_nil_iff {s : String} : bytes s = [] ↔ s = "" := by
  rw [← bytes_inj]
  rfl

namespace Settings

/-- The steps of a path, and a name behind a slash. -/
lemma ofBytes_append_name (xs : List UInt8) :
    Path.ofBytes (xs ++ ascii '/' :: bytes databaseName) =
      ⟨(xs ++ [ascii '/']).head? = some (ascii '/'),
        (Path.ofBytes xs).steps ++ [.into (bytes databaseName)], false⟩ := by
  have hname : (pieces (ascii '/') (bytes databaseName)).filterMap PathStep.ofPart?
      = [.into (bytes databaseName)] := by decide +kernel
  have hlast : (xs ++ ascii '/' :: bytes databaseName).getLast? = some (ascii 'b') := by
    rw [List.getLast?_append, List.getLast?_cons]
    have hb : (bytes databaseName).getLast? = some (ascii 'b') := by decide +kernel
    rw [hb]
    rfl
  have hhead : (xs ++ ascii '/' :: bytes databaseName).head? = (xs ++ [ascii '/']).head? := by
    cases xs <;> rfl
  rw [Path.ofBytes, pieces_append, List.filterMap_append, hname, hlast, hhead]
  rfl

/-- The path of the database is its name behind bytes of the data directory, and perhaps a slash. -/
lemma bytes_databasePath (s : Settings) :
    ∃ xs, bytes s.databasePath = xs ++ bytes databaseName ∧
      ∀ b ∈ xs, b ∈ bytes s.dataDir ∨ b = ascii '/' := by
  rw [databasePath, joinPath]
  split_ifs
  · exact ⟨bytes s.dataDir, bytes_append .., fun b hb => .inl hb⟩
  · refine ⟨bytes s.dataDir ++ bytes "/", by rw [bytes_append, bytes_append], fun b hb => ?_⟩
    exact (List.mem_append.mp hb).imp_right List.mem_singleton.mp

/-- A slash at the end adds no step. -/
lemma steps_ofBytes_slash (xs : List UInt8) :
    (Path.ofBytes (xs ++ [ascii '/'])).steps = (Path.ofBytes xs).steps := by
  have hnone : (pieces (ascii '/') []).filterMap PathStep.ofPart? = [] := rfl
  rw [Path.ofBytes, pieces_append, List.filterMap_append, hnone, List.append_nil]
  rfl

/-- The path of the database is that of the data directory, and its name behind it. -/
lemma ofBytes_databasePath (s : Settings) :
    Path.ofBytes (bytes s.databasePath) =
      ⟨(Path.ofBytes (bytes s.dataDir)).absolute,
        (Path.ofBytes (bytes s.dataDir)).steps ++ [.into (bytes databaseName)], false⟩ := by
  rw [databasePath, joinPath]
  by_cases hempty : s.dataDir = ""
  · rw [if_pos (.inl hempty), hempty]
    decide +kernel
  · by_cases hslash : s.dataDir.toList.getLast? = some '/'
    · obtain ⟨cs, hcs⟩ := List.getLast?_eq_some_iff.mp hslash
      have hdir : s.dataDir = String.ofList cs ++ "/" := by
        rw [← String.toList_inj, hcs]
        simp
      have hbytes : bytes s.dataDir = bytes (String.ofList cs) ++ [ascii '/'] := by
        rw [hdir, bytes_append]
        rfl
      rw [if_pos (.inr hslash), bytes_append, hbytes, List.append_assoc]
      rw [List.singleton_append, ofBytes_append_name]
      rw [steps_ofBytes_slash]
      rfl
    · rw [if_neg (not_or.mpr ⟨hempty, hslash⟩), bytes_append, bytes_append, List.append_assoc]
      have hsl : bytes "/" = [ascii '/'] := rfl
      rw [hsl, List.singleton_append, ofBytes_append_name]
      cases hb : bytes s.dataDir with
      | nil => exact absurd (bytes_eq_nil_iff.mp hb) hempty
      | cons b bs => rfl

end Settings

namespace FileTree

variable {t after : FileTree} {dir : String}

/-- The place to which the path of the database of a data directory leads by its names. -/
def databasePlace (t : FileTree) (dir : String) : Location :=
  let path := Path.ofBytes (bytes dir)
  bytes Settings.databaseName :: (t.start path).after path.steps

lemma Keeps.databasePlace (h : t.Keeps after) (dir : String) :
    after.databasePlace dir = t.databasePlace dir := by
  rw [FileTree.databasePlace, FileTree.databasePlace, h.start]

/-- A data directory is there, with all the directories on its way. -/
structure Prepared (t : FileTree) (dir : String) : Prop where
  /-- Relative paths start at a place that stands. -/
  stands : t.Stands t.directory
  /-- The path of the data directory can be read, if it is not empty. -/
  readable : dir = "" ∨ Path.read (bytes dir) = .ok (Path.ofBytes (bytes dir))
  /-- Its steps lead to directories. -/
  walked : t.Walked (t.start (Path.ofBytes (bytes dir))) (Path.ofBytes (bytes dir)).steps

lemma read_eq_ok {bs : List UInt8} {path : Path} (h : Path.read bs = .ok path) :
    path = Path.ofBytes bs := by
  rw [Path.read] at h
  split_ifs at h
  exact (Except.ok.inj h).symm

/-- The path of a database ends with its name. -/
lemma locate_databasePath {s : Settings}
    (h : Path.read (bytes s.databasePath) = .ok (Path.ofBytes (bytes s.databasePath))) :
    t.locate (bytes s.databasePath) =
      t.follow (t.start (Path.ofBytes (bytes s.dataDir)))
        ((Path.ofBytes (bytes s.dataDir)).steps ++ [.into (bytes Settings.databaseName)]) := by
  rw [locate, h, Settings.ofBytes_databasePath]
  show t.follow _ (_ ++ []) = _
  rw [List.append_nil]
  rfl

/-- What is found at the end of a path is what stands where it leads. -/
lemma find_of_locate {path : List UInt8} {place : Location} (h : t.locate path = .ok place) :
    t.find path = match t.lookup? place with
      | some entry => .ok entry
      | none => .error .notFound := by
  rw [find, h]
  rfl

lemma keeps_makeDirectories (t : FileTree) (dir : String) : t.Keeps (t.makeDirectories dir).2 := by
  unfold makeDirectories
  split
  · exact .refl t
  · split
    · exact .refl t
    · exact keeps_extend false

lemma lookup?_makeDirectories (t : FileTree) (dir : String) (place : Location) :
    (t.makeDirectories dir).2.lookup? place = t.lookup? place ∨
      (t.makeDirectories dir).2.lookup? place = some .directory := by
  unfold makeDirectories
  split
  · exact .inl rfl
  · split
    · exact .inl rfl
    · exact lookup?_extend false place

/-- A data directory that was made is there. -/
lemma prepared_of_makeDirectories (h : t.Stands t.directory)
    (hmade : t.makeDirectories dir = (.ok (), after)) : after.Prepared dir := by
  have hkeeps : t.Keeps after := by
    have hkeeps := keeps_makeDirectories t dir
    rwa [hmade] at hkeeps
  have hstands : after.Stands after.directory := by
    rw [hkeeps.directory]
    exact h.keeps hkeeps
  rw [makeDirectories] at hmade
  split_ifs at hmade with hempty
  · refine ⟨hstands, .inl hempty, ?_⟩
    rw [hempty]
    trivial
  · split at hmade
    · cases hmade
    · next path hread =>
        obtain rfl := read_eq_ok hread
        refine ⟨hstands, .inr hread, ?_⟩
        rw [hkeeps.start]
        exact walked_of_extend hmade

/-- A data directory that could not be made cannot be made later, and trying again changes
nothing. -/
lemma makeDirectories_of_refused {fault : FileFault}
    (h : t.makeDirectories dir = (.error fault, after)) :
    ∃ fault, after.makeDirectories dir = (.error fault, after) := by
  have hkeeps : t.Keeps after := by
    have hkeeps := keeps_makeDirectories t dir
    rwa [h] at hkeeps
  rw [makeDirectories] at h ⊢
  by_cases hempty : dir = ""
  · rw [if_pos hempty] at h
    cases h
  · rw [if_neg hempty] at h ⊢
    split at h
    · next refusal hread => exact ⟨refusal, rfl⟩
    · next path hread =>
        rw [hkeeps.start]
        exact extend_of_refused h false

namespace Prepared

lemma keeps (h : t.Prepared dir) (hkeeps : t.Keeps after) : after.Prepared dir where
  stands := by
    rw [hkeeps.directory]
    exact h.stands.keeps hkeeps
  readable := h.readable
  walked := by
    rw [hkeeps.start]
    exact h.walked.keeps hkeeps

/-- Its path is not too long. -/
lemma length_lt (h : t.Prepared dir) : (bytes dir).length < Path.lengthBound := by
  rcases h.readable with rfl | hread
  · decide
  · rw [Path.read] at hread
    split_ifs at hread with hzero hlong
    exact Nat.lt_of_not_le hlong

/-- To make it again changes nothing. -/
lemma makeDirectories (h : t.Prepared dir) : t.makeDirectories dir = (.ok (), t) := by
  rw [FileTree.makeDirectories]
  split_ifs with hempty
  · rfl
  · rw [h.readable.resolve_left hempty]
    exact extend_of_walked h.walked false

/-- The database would be in a place that stands. -/
lemma stands_tail (h : t.Prepared dir) : t.Stands (t.databasePlace dir).tail :=
  (h.stands.start _).walk h.walked

variable {s : Settings}

/-- The path of the database is followed by its names. -/
lemma resolve_eq (h : t.Prepared s.dataDir) :
    t.resolve (bytes s.databasePath) =
      (((Path.ofBytes (bytes s.dataDir)).steps
        ++ [PathStep.into (bytes Settings.databaseName)]).foldlM
        reached (t.start (Path.ofBytes (bytes s.dataDir)))).bind fun place =>
          if place = [] ∨ reachBound < place.width + endingRoom then none else some place := by
  rw [← foldlM_reach_eq (h.stands.start _) h.walked, resolve, Settings.ofBytes_databasePath]
  rfl

/-- The database is reached where it was reached before. -/
lemma resolve_keeps (h : t.Prepared s.dataDir) (hkeeps : t.Keeps after) :
    after.resolve (bytes s.databasePath) = t.resolve (bytes s.databasePath) := by
  rw [h.resolve_eq, (h.keeps hkeeps).resolve_eq, hkeeps.start]

/-- A database that is reached is in its place. -/
lemma place_of_resolve {place : Location} (h : t.Prepared s.dataDir)
    (hplace : t.resolve (bytes s.databasePath) = some place) :
    place = t.databasePlace s.dataDir := by
  rw [h.resolve_eq] at hplace
  obtain ⟨led, hled, hplace⟩ := Option.bind_eq_some_iff.mp hplace
  split_ifs at hplace
  rw [← Option.some.inj hplace, after_of_reached hled, Location.after, List.foldl_append]
  rfl

/-- The path of the database can be read if it is not too long. -/
lemma read_databasePath (h : t.Prepared s.dataDir)
    (hshort : (bytes s.databasePath).length < Path.lengthBound) :
    Path.read (bytes s.databasePath) = .ok (Path.ofBytes (bytes s.databasePath)) := by
  obtain ⟨xs, hxs, hmem⟩ := s.bytes_databasePath
  have hclean : 0 ∉ bytes s.dataDir := by
    rcases h.readable with hempty | hread
    · rw [hempty]
      exact List.not_mem_nil
    · intro hzero
      rw [Path.read, if_pos hzero] at hread
      cases hread
  have hname : 0 ∉ bytes Settings.databaseName := by decide +kernel
  have hzero : 0 ∉ bytes s.databasePath := by
    rw [hxs, List.mem_append]
    rintro (hzero | hzero)
    · rcases hmem 0 hzero with hzero | hslash
      · exact hclean hzero
      · exact absurd hslash (by decide)
    · exact hname hzero
  have hne : bytes s.databasePath ≠ [] := by
    rw [hxs]
    exact List.append_ne_nil_of_right_ne_nil xs (by decide +kernel)
  rw [Path.read, if_neg hzero, if_neg (Nat.not_le.mpr hshort), if_neg hne]

/-- If the path of the database is not too long, the database is found exactly if there is one. -/
lemma isPresent_eq (h : t.Prepared s.dataDir)
    (hshort : (bytes s.databasePath).length < Path.lengthBound) :
    t.isPresent s.databasePath = (t.lookup? (t.databasePlace s.dataDir)).isSome := by
  have hlocate : t.locate (bytes s.databasePath) = .ok (t.databasePlace s.dataDir) := by
    have hplace := h.stands_tail _ List.suffix_rfl
    have hname : (bytes Settings.databaseName).length ≤ PathStep.longestName := by decide +kernel
    rw [locate_databasePath (h.read_databasePath hshort),
      follow_of_walked (h.stands.start _) h.walked]
    simp only [databasePlace, List.tail_cons] at hplace ⊢
    simp only [follow, hplace, PathStep.lead, hname, if_true]
  rw [isPresent, find_of_locate hlocate]
  cases t.lookup? (t.databasePlace s.dataDir) <;> rfl

end Prepared

/-- What is not there is not found. -/
lemma isPresent_of_none {s : Settings} (h : t.lookup? (t.databasePlace s.dataDir) = none) :
    t.isPresent s.databasePath = false := by
  cases hlocate : t.locate (bytes s.databasePath) with
  | error fault =>
      rw [isPresent, find, hlocate]
      rfl
  | ok led =>
      have hled : led = t.databasePlace s.dataDir := by
        cases hread : Path.read (bytes s.databasePath) with
        | error fault =>
            rw [locate, hread] at hlocate
            cases hlocate
        | ok path =>
            obtain rfl := read_eq_ok hread
            rw [locate_databasePath hread] at hlocate
            rw [follow_eq_ok hlocate, Location.after, List.foldl_append]
            rfl
      rw [isPresent, find_of_locate hlocate, hled, h]
      rfl

end FileTree

end FilterStore
