import FilterStore.Proofs.Repository.Shelf
import FilterStore.Proofs.Repository.Space

/-!
The repository does what the machine does.

* **The relation.** A database `Represents` a machine if it keeps the rules of its tables and every
  lookup finds what the machine holds; the queries for the active script and for all scripts then
  find it too (`Represents.findActive`, `Represents.findAll`).
* **Writes.** What the repository writes represents the machine with the new shelf or limit
  (`Represents.put`, `Represents.activate`, `Represents.move`, `Represents.setLimit` and so on).
* **The simulation.** `refines_run` is the step: the same answer, and databases and machines that
  still belong together. `results_runSession` is the run.
-/

namespace FilterStore

/-! ### Databases and machines -/

/-- The database holds what the machine holds. -/
structure Represents (db : Database) (m : Machine) : Prop where
  /-- The rules of the tables hold. -/
  schema : db.Schema
  /-- Every script is found. -/
  script : ∀ owner name, db.findScript owner name = .ok ((m.shelf owner).script? owner name)
  /-- Every limit is found. -/
  limit : ∀ key, key ≠ .owner "" → db.findLimit key = .ok (m.limit key)
  /-- The shelves are in order. -/
  sound : ∀ owner, (m.shelf owner).Sound

namespace Represents

variable {db after : Database} {m : Machine} {owner name : String}

lemma start : Represents .empty .start where
  schema := Database.schema_empty
  script owner name := by
    rw [Machine.start, Shelf.script?, Shelf.empty, Finmap.lookup_empty]
    rfl
  limit key _ := rfl
  sound _ := Shelf.sound_empty

/-- The listing finds all scripts. -/
lemma findAll (h : Represents db m) (owner : String) :
    db.findAll owner = .ok ((m.shelf owner).scripts owner) :=
  Database.findAll_of_findScript h.schema (Shelf.sorted_scripts _ owner) fun name => by
    rw [h.script, Shelf.find?_scripts]

/-- The query for the active script finds the pair. -/
lemma findActive (h : Represents db m) (owner : String) :
    db.findActive owner = .ok ((m.shelf owner).active.map fun p =>
      (m.shelf owner).script owner p.1 ((m.shelf owner).content p.1)) := by
  cases hactive : (m.shelf owner).active with
  | none =>
      refine Database.findActive_eq_none h.schema fun name => ⟨_, h.script owner name, fun s hs => ?_⟩
      obtain ⟨content, -, rfl⟩ := Option.map_eq_some_iff.mp hs
      simp [Shelf.script, Shelf.dateOf, hactive]
  | some p =>
      have hheld := (h.sound owner).held p hactive
      have hfind := h.script owner p.1
      rw [Shelf.script?_of_mem hheld] at hfind
      have hdate : (m.shelf owner).dateOf p.1 = some p.2 := Shelf.dateOf_eq_some_iff.mpr hactive
      refine Database.findActive_of_findScript h.schema hfind ?_
      simp [Shelf.script, hdate]

/-- The limit of the machine for an owner is the effective one of its two entries. -/
lemma limitFor_eq (m : Machine) (owner : String) :
    m.limitFor owner = effectiveLimit (m.limit (.owner owner)) (m.limit .default) := by
  rw [Machine.limitFor]
  cases m.limit (.owner owner) with
  | some own => rfl
  | none => cases m.limit .default <;> rfl

/-- The space check of the repository is that of the machine. -/
lemma spaceVerdict (h : Represents db m) (hne : owner ≠ "") (name : String) (size : UInt64) :
    Repository.spaceVerdict owner name size db = m.checkSpace owner name size.toNat := by
  have hown : db.findLimit (.owner owner) = .ok (m.limit (.owner owner)) :=
    h.limit _ fun heq => hne (QuotaKey.owner.inj heq)
  have hdefault : db.findLimit .default = .ok (m.limit .default) := h.limit _ nofun
  have hused : (Repository.usedBeside name ((m.shelf owner).scripts owner)).toNat
      = min ((m.shelf owner).usedBeside name) (UInt64.size - 1) := by
    rw [Operation.toNat_usedBeside_eq_min, Shelf.sum_scripts (h.sound owner)]
  rw [Repository.spaceVerdict_of_found (h.findAll owner) hown hdefault, Machine.checkSpace,
    limitFor_eq]
  cases hlimit : effectiveLimit (m.limit (.owner owner)) (m.limit .default) with
  | unlimited => rfl
  | bytes count =>
      have hcount := Database.lt_columnBound_of_effectiveLimit hown hdefault hlimit
      have htold : Repository.usedBeside name ((m.shelf owner).scripts owner)
          = .ofNat (min ((m.shelf owner).usedBeside name) (UInt64.size - 1)) := by
        rw [← hused, UInt64.ofNat_toNat]
      have hadmits : (Limit.bytes count).admits
            (Repository.usedBeside name ((m.shelf owner).scripts owner)) size = true
          ↔ (m.shelf owner).usedBeside name + size.toNat ≤ count.toNat :=
        admits_iff hused hcount
      rw [htold] at hadmits
      simp only [htold, hadmits, UInt64.ofNat_toNat, Limit.bytes?, Option.getD_some]

/-! ### Writes -/

/-- A shelf stands for the lookups of its owner alone. -/
lemma withShelf (h : Represents db m) {shelf : Shelf} (hschema : after.Schema)
    (hquotas : after.quotas = db.quotas)
    (hscript : ∀ o n, after.findScript o n =
      if owner = o then .ok (shelf.script? owner n) else db.findScript o n)
    (hsound : shelf.Sound) : Represents after (m.withShelf owner shelf) where
  schema := hschema
  script o n := by
    rw [hscript]
    split_ifs with ho
    · rw [← ho, Machine.withShelf_self]
    · rw [Machine.withShelf_of_ne m (Ne.symm ho), h.script]
  limit key hkey := by
    have hsame : after.findLimit key = db.findLimit key := by
      simp only [Database.findLimit, Database.quotaRow?, hquotas]
    rw [hsame]
    exact h.limit key hkey
  sound o := by
    by_cases ho : o = owner
    · rw [ho, Machine.withShelf_self]
      exact hsound
    · rw [Machine.withShelf_of_ne m ho]
      exact h.sound o

/-- A stored script stands in the view of its owner's shelf alone. -/
lemma store (h : Represents db m) {s : Script} {shelf : Shelf} (htakes : db.Takes s)
    (hsurvives : ∀ t ∈ s.activatedAt, t.Survives) (hsound : shelf.Sound)
    (hview : ∀ n, shelf.script? s.owner n =
      if s.name = n then some s else (m.shelf s.owner).script? s.owner n) :
    Represents (db.store s) (m.withShelf s.owner shelf) := by
  refine h.withShelf (h.schema.store htakes) rfl (fun o n => ?_) hsound
  rw [Database.findScript_store h.schema htakes.storable htakes.coherent hsurvives]
  by_cases ho : s.owner = o
  · rw [if_pos ho, hview, ← ho]
    by_cases hn : s.name = n
    · simp [hn]
    · simp [hn, h.script]
  · simp [ho]

/-- A content takes its place on the shelf. -/
lemma put (h : Represents db m) {content : String} (hfit : content.utf8ByteSize < columnBound)
    (owner name : String) :
    Represents
      (db.store (Repository.replacement owner name content ((m.shelf owner).script? owner name)))
      (m.withShelf owner ((m.shelf owner).put name content)) := by
  have hsound := (h.sound owner).put hfit name
  have hview := Shelf.script?_put (h.sound owner) owner name content
  have htakes := Repository.takes_replacement h.schema hfit (h.script owner name)
  -- what is stored is the script of the new shelf, so its date survives
  have hstored : (Repository.replacement owner name content ((m.shelf owner).script? owner name))
      = ((m.shelf owner).put name content).script owner name content := by
    have hsame := hview name
    rw [if_pos rfl, Shelf.script?, Shelf.put, Finmap.lookup_insert] at hsame
    exact (Option.some.inj hsame).symm
  rw [hstored] at htakes hview ⊢
  exact h.store htakes (hsound.script_storable hfit owner name).2.2 hsound hview

/-- A script that is taken out leaves the shelf. -/
lemma remove (h : Represents db m) (hdate : (m.shelf owner).dateOf name = none) :
    Represents (db.deleteScript owner name) (m.withShelf owner ((m.shelf owner).remove name)) := by
  refine h.withShelf h.schema.deleteScript rfl (fun o n => ?_) ((h.sound owner).remove hdate)
  rw [Database.findScript_deleteScript, Shelf.script?_remove]
  by_cases ho : owner = o
  · subst ho
    by_cases hn : name = n
    · simp [hn]
    · simp [hn, h.script]
  · simp [ho]

/-- A script that is renamed moves on the shelf. -/
lemma move (h : Represents db m) {source target content : String}
    (hsource : (m.shelf owner).contents.lookup source = some content)
    (htarget : (m.shelf owner).contents.lookup target = none) :
    Represents
      ((db.deleteScript owner source).store
        (((m.shelf owner).script owner source content).renamed target))
      (m.withShelf owner ((m.shelf owner).move source target content)) := by
  have hsound := h.sound owner
  have hfind : db.findScript owner source = .ok (some ((m.shelf owner).script owner source content)) := by
    rw [h.script, Shelf.script?, hsource]
    rfl
  have htakes := Repository.takes_renamed h.schema hfind target
  have hsurvives : ∀ t ∈ (((m.shelf owner).script owner source content).renamed target).activatedAt,
      t.Survives :=
    (hsound.script_storable (hsound.fits source content hsource) owner source).2.2
  refine h.withShelf (h.schema.deleteScript.store htakes) rfl (fun o n => ?_) (hsound.move hsource)
  rw [Database.findScript_store h.schema.deleteScript htakes.storable htakes.coherent hsurvives,
    Database.findScript_deleteScript, Shelf.script?_move hsound hsource htarget]
  by_cases ho : owner = o
  · subst ho
    by_cases ht : target = n
    · simp [ht, Script.renamed, Shelf.script]
    · by_cases hs : source = n
      · simp [ht, hs, Script.renamed, Shelf.script]
      · simp [ht, hs, Script.renamed, Shelf.script, h.script]
  · simp [ho, Script.renamed, Shelf.script]

/-- Switching the active script off takes the pair away. -/
lemma switchOff (h : Represents db m) {p : String × Instant}
    (hactive : (m.shelf owner).active = some p) :
    Represents
      (db.store ((m.shelf owner).script owner p.1 ((m.shelf owner).content p.1)).deactivate)
      (m.withShelf owner (m.shelf owner).switchOff) := by
  have hsound := h.sound owner
  have htakes : db.Takes
      ((m.shelf owner).script owner p.1 ((m.shelf owner).content p.1)).deactivate :=
    Database.takes_deactivate (hsound.script_storable (hsound.content_fits p.1) owner p.1).1
  refine h.store htakes (fun _ ht => nomatch ht) hsound.switchOff fun n => ?_
  rw [Shelf.script?_switchOff]
  split_ifs with hn
  · have hname : p.1 = n := hn
    subst hname
    exact congrArg (Option.map Script.deactivate) (Shelf.script?_of_mem (hsound.held p hactive) owner)
  · have hname : p.1 ≠ n := hn
    have hdate : (m.shelf owner).dateOf n = none := by
      simp [Shelf.dateOf, hactive, hname]
    exact Shelf.deactivate_script? hdate owner

/-- Activating a script where no other one is active sets the pair. -/
lemma activate_alone (h : Represents db m) (hname : name ∈ (m.shelf owner).contents)
    (hother : ∀ n, n ≠ name → (m.shelf owner).dateOf n = none) {now : Instant}
    (hnow : now.Survives)
    (htakes : db.Takes
      (((m.shelf owner).script owner name ((m.shelf owner).content name)).activate now)) :
    Represents
      (db.store (((m.shelf owner).script owner name ((m.shelf owner).content name)).activate now))
      (m.withShelf owner ((m.shelf owner).activate name now)) := by
  have hsurvives : ∀ t ∈ (((m.shelf owner).script owner name
      ((m.shelf owner).content name)).activate now).activatedAt, t.Survives := by
    intro t ht
    cases ht
    exact hnow
  refine h.store htakes hsurvives ((h.sound owner).activate hname hnow) fun n => ?_
  rw [Shelf.script?_activate]
  by_cases hn : name = n
  · subst hn
    have hactive := congrArg (Option.map fun s : Script => s.activate now)
      (Shelf.script?_of_mem hname owner)
    exact (if_pos rfl).trans (hactive.trans (if_pos rfl).symm)
  · have hinactive := Shelf.deactivate_script? (hother n (Ne.symm hn)) owner
    exact (if_neg hn).trans (hinactive.trans (if_neg hn).symm)

/-- Making a script the only active one sets the pair. -/
lemma activate (h : Represents db m) (hname : name ∈ (m.shelf owner).contents) {now : Instant}
    (hnow : now.Survives) :
    Represents
      (db.storeAll (Repository.switchOver now
        ((m.shelf owner).script owner name ((m.shelf owner).content name))
        ((m.shelf owner).active.map fun p =>
          (m.shelf owner).script owner p.1 ((m.shelf owner).content p.1))))
      (m.withShelf owner ((m.shelf owner).activate name now)) := by
  have hfind := h.script owner name
  rw [Shelf.script?_of_mem hname] at hfind
  have hturn := Repository.takesInTurn_switchOver h.schema now hfind (h.findActive owner)
  cases hactive : (m.shelf owner).active with
  | none =>
      rw [hactive] at hturn
      exact h.activate_alone hname (fun n _ => by simp [Shelf.dateOf, hactive]) hnow hturn.1
  | some p =>
      rw [hactive, Option.map_some] at hturn
      rw [Option.map_some]
      by_cases hp : p.1 = name
      · rw [Repository.switchOver_of_eq hp] at hturn ⊢
        refine h.activate_alone hname (fun n hn => ?_) hnow hturn.1
        simp [Shelf.dateOf, hactive, hp, Ne.symm hn]
      · rw [Repository.switchOver_of_ne hp] at hturn ⊢
        -- once the other script is off, this one is alone
        have hoff := h.switchOff hactive
        have hshelf := m.withShelf_self owner (m.shelf owner).switchOff
        have hheld : name ∈ ((m.withShelf owner (m.shelf owner).switchOff).shelf owner).contents := by
          rw [hshelf]
          exact hname
        have hboth := hoff.activate_alone hheld (fun n _ => by rw [hshelf]; rfl) hnow
        rw [hshelf, Machine.withShelf_withShelf] at hboth
        exact hboth hturn.2.1

/-- A limit stands for the lookups of its key alone. -/
lemma withLimit (h : Represents db m) {key : QuotaKey} (hkey : key ≠ .owner "")
    {limit : Option Limit} (hschema : after.Schema) (hscripts : after.scripts = db.scripts)
    (hlimit : ∀ k, after.findLimit k =
      if key.storageKey = k.storageKey then .ok limit else db.findLimit k) :
    Represents after (m.withLimit key limit) where
  schema := hschema
  script o n := by
    rw [Machine.withLimit, ← h.script]
    simp only [Database.findScript, Database.scriptRow?, hscripts]
  limit k hk := by
    simp only [hlimit, QuotaKey.storageKey_inj hkey hk]
    split_ifs with hsame
    · rw [← hsame, Machine.withLimit_self]
    · rw [Machine.withLimit_of_ne m (Ne.symm hsame), h.limit k hk]
  sound := h.sound

lemma setLimit (h : Represents db m) {key : QuotaKey} (hkey : key ≠ .owner "") {limit : Limit}
    (hl : limit.Storable) :
    Represents (db.storeLimit key limit) (m.withLimit key (some limit)) :=
  h.withLimit hkey h.schema.storeLimit rfl fun _ => Database.findLimit_storeLimit h.schema hl

lemma removeLimit (h : Represents db m) {key : QuotaKey} (hkey : key ≠ .owner "") :
    Represents (db.deleteLimit key) (m.withLimit key none) :=
  h.withLimit hkey h.schema.deleteLimit rfl fun _ => Database.findLimit_deleteLimit

end Represents

/-! ### The simulation -/

/-- An outcome is what the machine does: the same answer and the next machine, or the same failure
and the same machine. -/
def Refines (m : Machine) (o : Outcome Answer) : Except Failure (Answer × Machine) → Prop
  | .ok (answer, after) => o.result = .ok answer ∧ Represents o.database after
  | .error failure => o.result = .error failure ∧ Represents o.database m

section Quotas

open Repository

variable {db : Database} {m : Machine} (key : QuotaKey)

lemma ne_empty_of_checkOwner {owner : String} (h : checkOwner owner = .ok ()) : owner ≠ "" :=
  (Name.require_eq_ok_iff.mp h).1

lemma ne_of_checkKey {key : QuotaKey} (hk : checkKey key = .ok ()) : key ≠ .owner "" := by
  rintro rfl
  exact ne_empty_of_checkOwner hk rfl

lemma refines_hasQuota (h : Represents db m) (hk : checkKey key = .ok ()) :
    Refines m ((hasQuota key db).map .yes) (.ok (.yes (m.limit key).isSome, m)) := by
  rw [hasQuota_eq key hk, h.limit key (ne_of_checkKey hk)]
  exact ⟨rfl, h⟩

lemma refines_getQuota (h : Represents db m) (hk : checkKey key = .ok ()) :
    Refines m ((getQuota key db).map .limit) (m.getLimit key) := by
  rw [getQuota_eq key hk, h.limit key (ne_of_checkKey hk), Machine.getLimit]
  cases m.limit key with
  | none => exact ⟨rfl, h⟩
  | some limit => exact ⟨rfl, h⟩

lemma refines_setQuota (h : Represents db m) (hk : checkKey key = .ok ()) (limit : Limit) :
    Refines m ((setQuota key limit db).map fun _ => .done) (m.setLimit key limit) := by
  rcases limit.storable_or with hl | ⟨count, rfl, hl⟩
  · have hset : m.setLimit key limit = .ok (.done, m.withLimit key (some limit)) := by
      cases limit with
      | unlimited => rfl
      | bytes count => exact if_pos (hl count rfl)
    rw [setQuota_stored key hk hl, hset]
    exact ⟨rfl, h.setLimit (ne_of_checkKey hk) hl⟩
  · rw [setQuota_refused key hk hl, Machine.setLimit, if_neg (Nat.not_lt.mpr hl)]
    exact ⟨rfl, h⟩

lemma refines_removeQuota (h : Represents db m) (hk : checkKey key = .ok ()) :
    Refines m ((removeQuota key db).map fun _ => .done) (.ok (.done, m.withLimit key none)) := by
  rw [removeQuota_eq key hk]
  exact ⟨rfl, h.removeLimit (ne_of_checkKey hk)⟩

end Quotas

namespace Operation

open Repository

variable {now : Instant} {op : Operation} {db : Database} {m : Machine}

/-- An operation on good names does what the machine does. -/
theorem refines_act (h : Represents db m) (hnow : now.HasPlainYear) (hfit : op.Fits)
    (hc : op.checks = .ok ()) : Refines m (op.run now db) (m.act now op) := by
  cases op with
  | haveSpace owner name size =>
      have hv := h.spaceVerdict (ne_empty_of_checkOwner hc) name size
      rw [run, haveSpace_eq hc, hv, Machine.act]
      cases m.checkSpace owner name size.toNat with
      | error e => exact ⟨rfl, h⟩
      | ok u => exact ⟨rfl, h⟩
  | put owner name content =>
      have howner := (checkScript_eq_ok_iff.mp hc).1
      have hv := h.spaceVerdict (ne_empty_of_checkOwner howner) name (contentSize content)
      rw [toNat_contentSize hfit] at hv
      rw [run, Machine.act]
      cases hspace : m.checkSpace owner name content.utf8ByteSize with
      | error e =>
          rw [hspace] at hv
          rw [put_refused hc hv]
          exact ⟨rfl, h⟩
      | ok u =>
          rw [hspace] at hv
          obtain ⟨previous, hfind, hput⟩ := put_stored h.schema hc hfit hv
          cases hfind.symm.trans (h.script owner name)
          rw [hput]
          exact ⟨rfl, h.put hfit owner name⟩
  | list owner =>
      rw [run, list_eq hc, h.findAll, Machine.act]
      refine ⟨?_, h⟩
      simp only [Outcome.map, Except.map, Shelf.scripts, List.map_map]
      rfl
  | get owner name =>
      rw [run, get_eq hc, h.script, Machine.act, Shelf.script?]
      cases (m.shelf owner).contents.lookup name with
      | none => exact ⟨rfl, h⟩
      | some content => exact ⟨rfl, h⟩
  | getActive owner =>
      rw [run, Repository.getActive, active_eq hc, h.findActive, Machine.act]
      cases (m.shelf owner).active with
      | none => exact ⟨rfl, h⟩
      | some p => exact ⟨rfl, h⟩
  | getActivationDate owner =>
      rw [run, Repository.getActivationDate, active_eq hc, h.findActive, Machine.act]
      cases hactive : (m.shelf owner).active with
      | none => exact ⟨rfl, h⟩
      | some p =>
          have hdate : (m.shelf owner).dateOf p.1 = some p.2 := Shelf.dateOf_eq_some_iff.mpr hactive
          refine ⟨?_, h⟩
          simp [Outcome.andThen, Outcome.map, Except.bind, Except.map, Shelf.script, hdate]
  | setActive owner name =>
      rw [run, setActive_eq hc, Machine.act]
      split_ifs with hname
      · rw [deactivate_eq h.schema, h.findActive]
        cases hactive : (m.shelf owner).active with
        | none =>
            have hsame : (m.shelf owner).switchOff = m.shelf owner := by
              rw [Shelf.switchOff, ← hactive]
            rw [hsame, Machine.withShelf_shelf]
            exact ⟨rfl, h⟩
        | some p => exact ⟨rfl, h.switchOff hactive⟩
      · rw [activate_eq h.schema, h.script, Shelf.script?]
        cases hlookup : (m.shelf owner).contents.lookup name with
        | none => exact ⟨rfl, h⟩
        | some content =>
            have hheld := Finmap.mem_of_lookup_eq_some hlookup
            have hcontent : (m.shelf owner).content name = content := by
              rw [Shelf.content, hlookup]
              rfl
            have hafter := h.activate hheld hnow.survives
            rw [hcontent] at hafter
            simp only [Option.map_some, h.findActive]
            exact ⟨rfl, hafter⟩
  | delete owner name =>
      rw [run, delete_eq hc, h.script, Machine.act, Shelf.script?]
      cases hlookup : (m.shelf owner).contents.lookup name with
      | none => exact ⟨rfl, h⟩
      | some content =>
          cases hdate : (m.shelf owner).dateOf name with
          | some date =>
              simp only [Option.map_some, Shelf.script, hdate]
              exact ⟨rfl, h⟩
          | none =>
              simp only [Option.map_some, Shelf.script, hdate]
              exact ⟨rfl, h.remove hdate⟩
  | rename owner source target =>
      rw [run, rename_eq h.schema hc, h.script, h.script, Machine.act, Shelf.script?, Shelf.script?]
      cases hsource : (m.shelf owner).contents.lookup source with
      | none => exact ⟨rfl, h⟩
      | some content =>
          cases htarget : (m.shelf owner).contents.lookup target with
          | some other => exact ⟨rfl, h⟩
          | none => exact ⟨rfl, h.move hsource htarget⟩
  | hasDefaultQuota => exact refines_hasQuota .default h hc
  | hasQuota owner => exact refines_hasQuota (.owner owner) h hc
  | getDefaultQuota => exact refines_getQuota .default h hc
  | getQuota owner => exact refines_getQuota (.owner owner) h hc
  | setDefaultQuota limit => exact refines_setQuota .default h hc limit
  | setQuota owner limit => exact refines_setQuota (.owner owner) h hc limit
  | removeDefaultQuota => exact refines_removeQuota .default h hc
  | removeQuota owner => exact refines_removeQuota (.owner owner) h hc

/-- An operation does what the machine does. -/
theorem refines_run (h : Represents db m) (hnow : now.HasPlainYear) (hfit : op.Fits) :
    Refines m (op.run now db) (m.perform now op) := by
  rw [Machine.perform]
  cases hc : op.checks with
  | error e =>
      rw [run_of_checks_error hc]
      exact ⟨rfl, h⟩
  | ok u => exact refines_act h hnow hfit hc

end Operation

/-! ### Runs -/

/-- From a database and a machine that belong together on, the answers are the same. -/
lemma results_of_represents {calls : List (Instant × Operation)}
    (hcalls : ∀ call ∈ calls, call.1.HasPlainYear ∧ call.2.Fits) {db : Database} {m : Machine}
    (h : Represents db m) :
    (runSession (calls.map fun call => (call.1, .operation call.2)) db).1.map Response.result
      = (m.answers calls).map fun answer => answer.map Reply.operation := by
  induction calls generalizing db m with
  | nil => rfl
  | cons call rest ih =>
      obtain ⟨hnow, hfit⟩ := hcalls call List.mem_cons_self
      have hrest := fun next hnext => hcalls next (List.mem_cons_of_mem call hnext)
      have hstep := Operation.refines_run h hnow hfit
      have hsplit : (runSession ((call :: rest).map fun call => (call.1, .operation call.2)) db).1.map
            Response.result
          = (call.2.run call.1 db).result.map Reply.operation ::
            (runSession (rest.map fun call => (call.1, .operation call.2))
              (call.2.run call.1 db).database).1.map Response.result := rfl
      rw [hsplit, Machine.answers]
      cases hact : m.perform call.1 call.2 with
      | error e =>
          rw [hact] at hstep
          rw [hstep.1, ih hrest hstep.2]
          rfl
      | ok done =>
          rw [hact] at hstep
          rw [hstep.1, ih hrest hstep.2]
          rfl

/-- **The refinement**: in every session of operations on an empty database, each at a time in the
years 0 to 9999, the repository gives the answers of the machine, the failures and so their wording
included. -/
theorem results_runSession {calls : List (Instant × Operation)}
    (hcalls : ∀ call ∈ calls, call.1.HasPlainYear ∧ call.2.Fits) :
    (runSession (calls.map fun call => (call.1, .operation call.2)) .empty).1.map Response.result
      = (Machine.start.answers calls).map fun answer => answer.map Reply.operation :=
  results_of_represents hcalls .start

/-- A script that is renamed stays the active one and cannot be deleted. -/
theorem results_runSession_renamed :
    let calls : List (Instant × Operation) :=
      [(.epoch, .put "ann" "day" "keep;"), (.epoch, .setActive "ann" "day"),
        (.epoch, .rename "ann" "day" "night"), (.epoch, .list "ann"),
        (.epoch, .delete "ann" "night")]
    (Machine.start.answers calls).map (fun answer => answer.map Reply.operation) =
      [.ok (.operation .done), .ok (.operation .done), .ok (.operation .done),
        .ok (.operation (.listing [⟨"night", true⟩])), .error (.scriptActive "night" "ann")] := by
  intro calls
  have hnow := Instant.hasPlainYear_epoch
  have hsize : "keep;".utf8ByteSize < columnBound := by decide +kernel
  have hcalls : ∀ call ∈ calls, call.1.HasPlainYear ∧ call.2.Fits := by
    simp only [calls, List.forall_mem_cons]
    exact ⟨⟨hnow, hsize⟩, ⟨hnow, trivial⟩, ⟨hnow, trivial⟩, ⟨hnow, trivial⟩, ⟨hnow, trivial⟩,
      List.forall_mem_nil _⟩
  rw [← results_runSession hcalls]
  decide +kernel

end FilterStore
