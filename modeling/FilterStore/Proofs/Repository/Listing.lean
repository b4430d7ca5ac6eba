import FilterStore.Proofs.Repository.ActiveScript
import FilterStore.Proofs.Store.Storing
import FilterStore.Proofs.Store.Volume

/-!
A listing tells what the operations on an owner's scripts will say.

* **Verdicts.** Where the scripts of an owner can be listed, every lookup of theirs finds what is
  listed. So a listing decides whether a script can be got, deleted, activated or renamed, and
  else for which reason it cannot (`result_delete_of_listed` and its siblings).
* **The next listing.** What such an operation does to the tables is seen in the listing as the
  removal of an entry (`list_after_delete`), as another mark (`list_after_activate`) or as an entry
  that moves to the place of its new name (`list_after_rename`).
* **The forecast.** `Forecast` collects both, and `forecast_of_listed` is the theorem.
-/

namespace FilterStore

namespace Script

/-- What becomes of a script when the one of this name is made the only active one. -/
def switchedTo (now : Instant) (name : String) (s : Script) : Script :=
  if s.name = name then s.activate now else s.deactivate

lemma name_switchedTo (now : Instant) (name : String) (s : Script) :
    (s.switchedTo now name).name = s.name := by
  rw [switchedTo]
  split_ifs <;> rfl

/-- An inactive script has neither mark nor date to lose. -/
lemma deactivate_eq_self {s : Script} (hc : s.Coherent) (h : s.active = false) :
    s.deactivate = s := by
  have hdate : s.activatedAt = none := by
    have hnone : s.activatedAt.isSome = false := hc.symm.trans h
    exact Option.isNone_iff_eq_none.mp (Option.isSome_eq_false_iff.mp hnone)
  rw [deactivate, ← h, ← hdate]

end Script

namespace Database

open Repository

variable {db : Database} {owner : String}

/-- Every row of an owner whose scripts are listed can be read. -/
lemma readable_of_findAll {l : List Script} (h : db.findAll owner = .ok l) {r : ScriptRow}
    (hr : r ∈ db.scripts) (ho : r.owner = owner) : r.Readable := by
  cases hread : r.script with
  | ok s => exact ⟨s, hread⟩
  | error f =>
      obtain ⟨e, he⟩ := mapM_fails_iff.mpr ⟨r, mem_scriptRows.mpr ⟨hr, ho⟩, f, hread⟩
      cases h.symm.trans he

/-- The active script is found under its own name. -/
lemma findScript_of_findActive (hdb : db.Schema) {s : Script}
    (h : db.findActive owner = .ok (some s)) : db.findScript owner s.name = .ok (some s) := by
  obtain ⟨r, hr, ho, -, hrs⟩ := shows_of_findActive hdb h
  refine optionMapM_eq_some_iff.mpr ⟨r, ?_, ScriptRow.script_eq_ok_iff.mpr hrs⟩
  exact (scriptRow?_eq_some_iff hdb).mpr ⟨hr, ho, hrs.name.symm⟩

/-- A script of another name than the active one is inactive. -/
lemma inactive_of_findActive (hdb : db.Schema) {current : Option Script}
    (hcurrent : db.findActive owner = .ok current) {n : String} {s : Script}
    (hs : db.findScript owner n = .ok (some s)) (hother : ∀ p ∈ current, p.name ≠ n) :
    s.active = false := by
  by_contra hactive
  have hfound := findActive_of_findScript hdb hs (Bool.eq_true_of_not_eq_false hactive)
  obtain ⟨r, -, -, hrn, hrs⟩ := shows_of_findScript hdb hs
  obtain rfl := Except.ok.inj (hcurrent.symm.trans hfound)
  exact hother s rfl (hrs.name.trans hrn)

/-! ### Switching scripts over -/

section SwitchOver

variable {now : Instant} {name n : String} {target : Script} {current found : Option Script}

/-- Switching the active script off leaves every script off. -/
lemma findScript_store_deactivate (hdb : db.Schema) {other : Script}
    (hcurrent : db.findActive owner = .ok (some other))
    (hfound : db.findScript owner n = .ok found) :
    (db.store other.deactivate).findScript owner n = .ok (found.map Script.deactivate) := by
  obtain ⟨r, -, hro, -, hrs⟩ := shows_of_findActive hdb hcurrent
  rw [findScript_store hdb (s := other.deactivate) hrs.storable other.coherent_deactivate
    (fun _ ht => nomatch ht)]
  by_cases hn : other.name = n
  · subst hn
    cases hfound.symm.trans (findScript_of_findActive hdb hcurrent)
    exact if_pos ⟨hrs.owner.trans hro, rfl⟩
  · rw [if_neg fun hkey => hn hkey.2, hfound]
    cases found with
    | none => rfl
    | some s =>
        obtain ⟨q, -, -, -, hqs⟩ := shows_of_findScript hdb hfound
        have hs : s.active = false := by
          refine inactive_of_findActive hdb hcurrent hfound fun p hp => ?_
          rwa [← Option.some.inj hp]
        rw [Option.map_some, Script.deactivate_eq_self hqs.coherent hs]

/-- Where no other script is on, activating one leaves each as it becomes. -/
lemma findScript_store_activate (hdb : db.Schema) (hnow : now.HasPlainYear)
    (htarget : db.findScript owner name = .ok (some target))
    (hfound : db.findScript owner n = .ok found)
    (hinactive : ∀ s ∈ found, n ≠ name → s.active = false) :
    (db.store (target.activate now)).findScript owner n
      = .ok (found.map (Script.switchedTo now name)) := by
  obtain ⟨r, -, hro, hrn, hrs⟩ := shows_of_findScript hdb htarget
  have hto : target.owner = owner := hrs.owner.trans hro
  have htn : target.name = name := hrs.name.trans hrn
  have hsurvives : ∀ t ∈ (target.activate now).activatedAt, t.Survives := by
    rintro t ht
    cases ht
    exact hnow.survives
  rw [findScript_store hdb (s := target.activate now) hrs.storable (target.coherent_activate now)
    hsurvives]
  by_cases hn : n = name
  · subst hn
    cases hfound.symm.trans htarget
    rw [if_pos ⟨hto, htn⟩, Option.map_some, Script.switchedTo, if_pos htn]
  · rw [if_neg fun hkey => hn (hkey.2.symm.trans htn), hfound]
    cases found with
    | none => rfl
    | some s =>
        obtain ⟨q, -, -, hqn, hqs⟩ := shows_of_findScript hdb hfound
        have hs : ¬ s.name = name := fun hs => hn (hqn.symm.trans (hqs.name.symm.trans hs))
        rw [Option.map_some, Script.switchedTo, if_neg hs,
          Script.deactivate_eq_self hqs.coherent (hinactive s rfl hn)]

/-- The writes that make a script the only active one leave each script as it becomes. -/
lemma findScript_storeAll_switchOver (hdb : db.Schema) (hnow : now.HasPlainYear)
    (htarget : db.findScript owner name = .ok (some target))
    (hcurrent : db.findActive owner = .ok current) (hfound : db.findScript owner n = .ok found) :
    (db.storeAll (switchOver now target current)).findScript owner n
      = .ok (found.map (Script.switchedTo now name)) := by
  have hturn := takesInTurn_switchOver hdb now htarget hcurrent
  obtain ⟨r, -, -, hrn, hrs⟩ := shows_of_findScript hdb htarget
  have htn : target.name = name := hrs.name.trans hrn
  cases current with
  | none =>
      refine findScript_store_activate hdb hnow htarget hfound fun s hs _ => ?_
      obtain rfl : found = some s := hs
      exact inactive_of_findActive hdb hcurrent hfound fun _ hp => nomatch hp
  | some other =>
      by_cases hname : other.name = target.name
      · rw [switchOver_of_eq hname]
        refine findScript_store_activate hdb hnow htarget hfound fun s hs hn => ?_
        obtain rfl : found = some s := hs
        refine inactive_of_findActive hdb hcurrent hfound fun p hp => ?_
        rw [← Option.some.inj hp, hname, htn]
        exact hn.symm
      · rw [switchOver_of_ne hname] at hturn ⊢
        -- once the other script is off, all are
        have hoff := findScript_store_activate (hdb.store hturn.1) hnow
          (findScript_store_deactivate hdb hcurrent htarget)
          (findScript_store_deactivate hdb hcurrent hfound) ?_
        · rw [Option.map_map] at hoff
          exact hoff
        · intro s hs _
          obtain ⟨p, -, rfl⟩ := Option.map_eq_some_iff.mp hs
          rfl

/-- They leave the same in the listing. -/
lemma findAll_storeAll_switchOver (hdb : db.Schema) {l : List Script}
    (hall : db.findAll owner = .ok l) (hnow : now.HasPlainYear)
    (htarget : db.findScript owner name = .ok (some target))
    (hcurrent : db.findActive owner = .ok current) :
    (db.storeAll (switchOver now target current)).findAll owner
      = .ok (l.map (Script.switchedTo now name)) := by
  have hafter := hdb.storeAll (takesInTurn_switchOver hdb now htarget hcurrent)
  refine findAll_of_findScript hafter ?_ fun n => ?_
  · refine List.pairwise_map.mpr ((sorted_findAll hdb hall).imp fun {s p} hsp => ?_)
    simpa only [Keyed.key, Script.name_switchedTo] using hsp
  · rw [findScript_storeAll_switchOver hdb hnow htarget hcurrent (findScript_of_findAll hall),
      Table.find?, List.find?_map]
    simp only [Function.comp_def, Keyed.key, Script.name_switchedTo]

end SwitchOver

end Database

namespace Repository

open Database

variable {db : Database} {owner : String} {listing : List Summary}

/-! ### Verdicts -/

section Verdicts

variable (hdb : db.Schema) (h : (list owner db).result = .ok listing)

include h

/-- A name is listed and its script is found, or it is not listed and nothing is found. -/
lemma listed_cases (name : String) :
    (name ∉ listing.map Summary.name ∧ db.findScript owner name = .ok none) ∨
      (name ∈ listing.map Summary.name ∧ ∃ s, db.findScript owner name = .ok (some s)) := by
  obtain ⟨-, l, hall, rfl⟩ := result_list_eq_ok_iff.mp h
  rcases hfind : l.find? (fun s => s.name = name) with _ | s
  · refine .inl ⟨fun hmem => ?_, (findScript_of_findAll hall).trans (congrArg _ hfind)⟩
    simp only [List.map_map, List.mem_map, Function.comp_apply] at hmem
    obtain ⟨s, hs, hname⟩ := hmem
    have hother : ¬ s.name = name := by simpa using List.find?_eq_none.mp hfind s hs
    exact absurd hname hother
  · have hname : s.name = name := by simpa using List.find?_some hfind
    have hentry : s.summary ∈ l.map Script.summary :=
      List.mem_map_of_mem (List.mem_of_find?_eq_some hfind)
    exact .inr ⟨List.mem_map.mpr ⟨s.summary, hentry, hname⟩,
      s, (findScript_of_findAll hall).trans (congrArg _ hfind)⟩

/-- Under a listed name a script is found. -/
lemma found_of_listed {name : String} (hname : name ∈ listing.map Summary.name) :
    ∃ s, db.findScript owner name = .ok (some s) := by
  rcases listed_cases h name with ⟨hnot, -⟩ | ⟨-, hfound⟩
  · exact absurd hname hnot
  · exact hfound

/-- Under every other name there is none. -/
lemma not_found_of_not_listed {name : String} (hname : name ∉ listing.map Summary.name) :
    db.findScript owner name = .ok none := by
  rcases listed_cases h name with ⟨-, hnone⟩ | ⟨hlisted, -⟩
  · exact hnone
  · exact absurd hlisted hname

include hdb

/-- An entry of a name that is listed is that of the script found under it. -/
lemma mem_listing_iff_of_found {s : Script} {name : String} {flag : Bool}
    (hs : db.findScript owner name = .ok (some s)) : ⟨name, flag⟩ ∈ listing ↔ s.active = flag := by
  rw [mem_listing_iff hdb h]
  constructor
  · rintro ⟨p, hp, hactive⟩
    cases hs.symm.trans hp
    exact hactive
  · exact fun hactive => ⟨s, hs, hactive⟩

lemma not_mem_listing_of_not_found {name : String} (hs : db.findScript owner name = .ok none)
    (flag : Bool) : ⟨name, flag⟩ ∉ listing := by
  rw [mem_listing_iff hdb h]
  rintro ⟨p, hp, -⟩
  cases hs.symm.trans hp

/-- The listed scripts are those that can be got. -/
lemma result_get_of_listed (name : String) :
    (name ∈ listing.map Summary.name →
      ∃ r ∈ db.scripts, r.owner = owner ∧ r.name = name ∧
        (get owner name db).result = .ok r.content) ∧
    (name ∉ listing.map Summary.name →
      (get owner name db).result = .error (.scriptNotFound name owner)) := by
  obtain ⟨ho, -⟩ := result_list_eq_ok_iff.mp h
  rw [get_eq ho]
  constructor
  · intro hname
    obtain ⟨s, hfound⟩ := found_of_listed h hname
    obtain ⟨r, hr, hro, hrn, hrs⟩ := shows_of_findScript hdb hfound
    rw [hfound]
    exact ⟨r, hr, hro, hrn, congrArg Except.ok hrs.content⟩
  · intro hname
    rw [not_found_of_not_listed h hname]
    rfl

/-- The scripts listed as inactive are those that can be deleted. -/
lemma result_delete_of_listed (name : String) :
    (delete owner name db).result =
      if ⟨name, false⟩ ∈ listing then .ok ()
      else if ⟨name, true⟩ ∈ listing then .error (.scriptActive name owner)
      else .error (.scriptNotFound name owner) := by
  obtain ⟨ho, -⟩ := result_list_eq_ok_iff.mp h
  rw [delete_eq ho]
  rcases listed_cases h name with ⟨-, hnone⟩ | ⟨-, s, hfound⟩
  · rw [if_neg (not_mem_listing_of_not_found hdb h hnone false),
      if_neg (not_mem_listing_of_not_found hdb h hnone true), hnone]
    rfl
  · simp only [mem_listing_iff_of_found hdb h hfound, hfound]
    cases s.active <;> rfl

/-- The listed scripts are those that can be activated. -/
lemma result_setActive_of_listed (now : Instant) {name : String} (hname : name ≠ "") :
    (setActive now owner name db).result =
      if name ∈ listing.map Summary.name then .ok () else .error (.scriptNotFound name owner) := by
  obtain ⟨ho, l, hall, -⟩ := result_list_eq_ok_iff.mp h
  rw [setActive_eq ho, if_neg hname, activate_eq hdb, findActive_of_findAll hdb hall]
  split_ifs with hlisted
  · obtain ⟨s, hfound⟩ := found_of_listed h hlisted
    rw [hfound]
  · rw [not_found_of_not_listed h hlisted]
    rfl

/-- The listed scripts are those that can be renamed, and the names that are not listed are those
that they can move to. -/
lemma result_rename_of_listed (name : String) {target : String}
    (htarget : Name.Valid .script target) :
    (rename owner name target db).result =
      if name ∈ listing.map Summary.name then
        if target ∈ listing.map Summary.name then .error (.nameTaken target owner) else .ok ()
      else .error (.scriptNotFound name owner) := by
  obtain ⟨ho, -⟩ := result_list_eq_ok_iff.mp h
  have hc : checkScript owner target = .ok () :=
    checkScript_eq_ok_iff.mpr ⟨ho, Name.require_eq_ok_iff.mpr htarget⟩
  rw [rename_eq hdb hc]
  split_ifs with hlisted htaken
  · obtain ⟨s, hfound⟩ := found_of_listed h hlisted
    obtain ⟨p, hother⟩ := found_of_listed h htaken
    rw [hfound, hother]
    rfl
  · obtain ⟨s, hfound⟩ := found_of_listed h hlisted
    rw [hfound, not_found_of_not_listed h htaken]
  · rw [not_found_of_not_listed h hlisted]
    rfl

end Verdicts

/-! ### The next listing -/

section NextListing

variable (hdb : db.Schema) (h : (list owner db).result = .ok listing)

include hdb h

/-- A deletion takes the entry out. -/
lemma list_after_delete {name : String} (hdone : (delete owner name db).result = .ok ()) :
    (list owner (delete owner name db).database).result
      = .ok (listing.filter fun entry => entry.name ≠ name) := by
  obtain ⟨ho, l, hall, rfl⟩ := result_list_eq_ok_iff.mp h
  rw [result_delete_of_listed hdb h] at hdone
  split_ifs at hdone with hlisted
  obtain ⟨s, hfound, hinactive⟩ := (mem_listing_iff hdb h).mp hlisted
  rw [delete_eq ho, hfound]
  simp only [if_neg (Bool.eq_false_iff.mp hinactive)]
  refine result_list_eq_ok_iff.mpr ⟨ho, _, findAll_deleteScript hall name, ?_⟩
  rw [List.filter_map]
  rfl

/-- An activation marks the entry and takes the mark from all others. -/
lemma list_after_activate {now : Instant} (hnow : now.HasPlainYear) {name : String}
    (hname : name ≠ "") (hdone : (setActive now owner name db).result = .ok ()) :
    (list owner (setActive now owner name db).database).result
      = .ok (listing.map fun entry => ⟨entry.name, entry.name = name⟩) := by
  obtain ⟨ho, l, hall, rfl⟩ := result_list_eq_ok_iff.mp h
  rw [result_setActive_of_listed hdb h now hname] at hdone
  split_ifs at hdone with hlisted
  obtain ⟨target, hfound⟩ := found_of_listed h hlisted
  have hcurrent := findActive_of_findAll hdb hall
  rw [setActive_eq ho, if_neg hname, activate_eq hdb, hcurrent, hfound]
  refine result_list_eq_ok_iff.mpr
    ⟨ho, _, findAll_storeAll_switchOver hdb hall hnow hfound hcurrent, ?_⟩
  rw [List.map_map, List.map_map]
  refine List.map_congr_left fun s _ => ?_
  rw [Function.comp_apply, Function.comp_apply, Script.switchedTo]
  split_ifs with hs
  · exact congrArg (Summary.mk s.name) (decide_eq_true hs)
  · exact congrArg (Summary.mk s.name) (decide_eq_false hs)

/-- A renaming takes the entry out and puts it at the place of its new name. -/
lemma list_after_rename {name target : String}
    (hplain : ∀ r ∈ db.scripts, r.owner = owner →
      ∀ t, r.readDate = .ok (some t) → t.HasPlainYear)
    (hvalid : Name.Valid .script target) (hdone : (rename owner name target db).result = .ok ()) :
    ∃ flag before behind, ⟨name, flag⟩ ∈ listing ∧
      (listing.filter fun entry => entry.name ≠ name) = before ++ behind ∧
      (list owner (rename owner name target db).database).result
        = .ok (before ++ ⟨target, flag⟩ :: behind) ∧
      (∀ entry ∈ before, Text.precedes entry.name target = true) ∧
      ∀ entry ∈ behind, Text.precedes target entry.name = true := by
  obtain ⟨ho, l, hall, hlisting⟩ := result_list_eq_ok_iff.mp h
  have hc : checkScript owner target = .ok () :=
    checkScript_eq_ok_iff.mpr ⟨ho, Name.require_eq_ok_iff.mpr hvalid⟩
  rw [result_rename_of_listed hdb h name hvalid] at hdone
  split_ifs at hdone with hlisted hother
  obtain ⟨s, hfind⟩ := found_of_listed h hlisted
  have htarget := not_found_of_not_listed h hother
  rw [rename_eq hdb hc, hfind, htarget]
  obtain rfl : s.owner = owner := owner_of_findScript hfind
  obtain ⟨r, hr, hro, -, hrs⟩ := shows_of_findScript hdb hfind
  -- the script goes in beside those that the deletion left
  have hout := findAll_deleteScript hall name
  have hsurvives : ∀ t ∈ (s.renamed target).activatedAt, t.Survives := fun t ht =>
    (hplain r hr hro t (hrs.date.trans (congrArg _ ht))).survives
  have hbeside : (db.deleteScript s.owner name).ReadableBeside s.owner target :=
    fun q hq hqo _ => readable_of_findAll hout hq hqo
  obtain ⟨before, behind, hafter, hplaced⟩ :=
    exists_findAll_store hdb.deleteScript (takes_renamed hdb hfind target) hsurvives hbeside
  obtain ⟨found, hfound, hsplit⟩ := hplaced.former _ hout
  have hfree : (db.deleteScript s.owner name).findScript s.owner target = .ok none := by
    rw [findScript_deleteScript, htarget, ite_self]
  obtain rfl : found = none := Except.ok.inj (hfound.symm.trans hfree)
  refine ⟨s.active, before.map Script.summary, behind.map Script.summary,
    (mem_listing_iff hdb h).mpr ⟨s, hfind, rfl⟩, ?_, ?_, ?_, ?_⟩
  · have hrest := congrArg (List.map Script.summary) hsplit
    rw [Option.toList_none, List.append_nil, List.map_append] at hrest
    rw [hlisting, List.filter_map, ← hrest]
    rfl
  · refine result_list_eq_ok_iff.mpr ⟨ho, _, hafter, ?_⟩
    rw [List.map_append, List.map_cons]
    rfl
  · intro entry hentry
    obtain ⟨p, hp, rfl⟩ := List.mem_map.mp hentry
    exact hplaced.before_lt p hp
  · intro entry hentry
    obtain ⟨p, hp, rfl⟩ := List.mem_map.mp hentry
    exact hplaced.lt_behind p hp

end NextListing

/-! ### The forecast -/

/-- What a listing of an owner's scripts tells. -/
structure Forecast (db : Database) (owner : String) (listing : List Summary) : Prop where
  /-- The names are those of the owner's rows. -/
  names : ∀ name, name ∈ listing.map Summary.name ↔
    ∃ r ∈ db.scripts, r.owner = owner ∧ r.name = name
  /-- They increase in the order of their bytes. -/
  increasing : (listing.map Summary.name).Pairwise fun m n => Text.precedes m n = true
  /-- The listed scripts are those that can be got. -/
  got : ∀ name,
    (name ∈ listing.map Summary.name →
      ∃ r ∈ db.scripts, r.owner = owner ∧ r.name = name ∧
        (get owner name db).result = .ok r.content) ∧
    (name ∉ listing.map Summary.name →
      (get owner name db).result = .error (.scriptNotFound name owner))
  /-- The scripts listed as inactive are those that can be deleted. -/
  deleted : ∀ name, (delete owner name db).result =
    if ⟨name, false⟩ ∈ listing then .ok ()
    else if ⟨name, true⟩ ∈ listing then .error (.scriptActive name owner)
    else .error (.scriptNotFound name owner)
  /-- The listed scripts are those that can be activated. -/
  activated : ∀ now name, name ≠ "" → (setActive now owner name db).result =
    if name ∈ listing.map Summary.name then .ok () else .error (.scriptNotFound name owner)
  /-- The listed scripts are those that can be renamed, and the names that are not listed are those
  that they can move to. -/
  renamed : ∀ name target, Name.Valid .script target → (rename owner name target db).result =
    if name ∈ listing.map Summary.name then
      if target ∈ listing.map Summary.name then .error (.nameTaken target owner) else .ok ()
    else .error (.scriptNotFound name owner)
  /-- A deletion takes the entry out. -/
  afterDelete : ∀ name, (delete owner name db).result = .ok () →
    (list owner (delete owner name db).database).result
      = .ok (listing.filter fun entry => entry.name ≠ name)
  /-- An activation marks the entry and takes the mark from all others. -/
  afterActivate : ∀ now name, now.HasPlainYear → name ≠ "" →
    (setActive now owner name db).result = .ok () →
      (list owner (setActive now owner name db).database).result
        = .ok (listing.map fun entry => ⟨entry.name, entry.name = name⟩)
  /-- A renaming takes the entry out and puts it at the place of its new name. -/
  afterRename : (∀ r ∈ db.scripts, r.owner = owner →
      ∀ t, r.readDate = .ok (some t) → t.HasPlainYear) →
    ∀ name target, Name.Valid .script target → (rename owner name target db).result = .ok () →
      ∃ flag before behind, ⟨name, flag⟩ ∈ listing ∧
        (listing.filter fun entry => entry.name ≠ name) = before ++ behind ∧
        (list owner (rename owner name target db).database).result
          = .ok (before ++ ⟨target, flag⟩ :: behind) ∧
        (∀ entry ∈ before, Text.precedes entry.name target = true) ∧
        ∀ entry ∈ behind, Text.precedes target entry.name = true

/-- The names of a listing are those of the rows, in their order. -/
lemma names_of_listed (h : (list owner db).result = .ok listing) :
    listing.map Summary.name = (db.scriptRows owner).map ScriptRow.name := by
  obtain ⟨-, l, hall, rfl⟩ := result_list_eq_ok_iff.mp h
  rw [List.map_map, ← names_of_findAll hall]
  rfl

/-- **A listing tells what will be said.** Where the rules of the tables hold and the scripts of an
owner can be listed, whatever their rows hold otherwise, the listing has the names of the owner's
rows in the order of their bytes, it decides for all texts whether getting, deleting, activating
and renaming succeed and else how they are refused, and what they do to the tables is seen in the
next listing as an entry that is gone, marked or moved. -/
theorem forecast_of_listed (hdb : db.Schema) (h : (list owner db).result = .ok listing) :
    Forecast db owner listing where
  names name := by
    rw [names_of_listed h]
    simp only [List.mem_map, mem_scriptRows, and_assoc]
  increasing := by
    rw [names_of_listed h]
    exact List.pairwise_map.mpr (scriptRows_pairwise hdb)
  got := result_get_of_listed hdb h
  deleted := result_delete_of_listed hdb h
  activated now _ hname := result_setActive_of_listed hdb h now hname
  renamed name _ hvalid := result_rename_of_listed hdb h name hvalid
  afterDelete _ hdone := list_after_delete hdb h hdone
  afterActivate _ _ hnow hname hdone := list_after_activate hdb h hnow hname hdone
  afterRename hplain _ _ hvalid hdone := list_after_rename hdb h hplain hvalid hdone

/-- Among names of which one is empty, one the beginning of another and one not in letters of one
byte, an active script with an odd size moves behind the last. -/
theorem forecast_of_listed_odd_names :
    let row (name : String) (size active : Int64) (date : Option String) : ScriptRow :=
      ⟨"ann", name, "keep;", size, active, date⟩
    let db : Database :=
      ⟨[row "" 5 2 none, row "a" 900 1 (some "2024-05-01T10:00:00Z"), row "ab" 5 0 none,
        row "é" 0 0 none, ⟨"bob", "b", "keep;", -1, 0, none⟩], []⟩
    let listing : List Summary := [⟨"", false⟩, ⟨"a", true⟩, ⟨"ab", false⟩, ⟨"é", false⟩]
    Forecast db "ann" listing ∧ Name.Valid .script "ü" ∧
      (delete "ann" "a" db).result = .error (.scriptActive "a" "ann") ∧
      (rename "ann" "a" "ü" db).result = .ok () ∧
      (list "ann" (rename "ann" "a" "ü" db).database).result
        = .ok [⟨"", false⟩, ⟨"ab", false⟩, ⟨"é", false⟩, ⟨"ü", true⟩] := by
  intro row db listing
  have hdb : db.Schema := by decide +kernel
  have hlisted : (list "ann" db).result = .ok listing := by decide +kernel
  have hforecast : Forecast db "ann" listing := forecast_of_listed hdb hlisted
  have hvalid : Name.Valid .script "ü" := Name.check_eq_ok_iff.mp (by decide +kernel)
  refine ⟨hforecast, hvalid, ?_, ?_, by decide +kernel⟩
  · rw [hforecast.deleted]
    rfl
  · rw [hforecast.renamed "a" "ü" hvalid]
    rfl

end Repository

end FilterStore
