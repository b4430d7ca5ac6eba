import FilterStore.Proofs.Repository.Batch
import FilterStore.Proofs.Repository.Soundness

/-!
One active script, seen from all sides.

* **Two representations.** The active script is looked up by its mark, while listings and single
  scripts show as active what has a date. Under the rules of the tables both are the same: a script
  that is listed as active is the one that the lookup finds (`mem_listing_iff`,
  `result_getActive_of_listed`).
* **Coherence.** `SeenAlike` collects what the methods of the repository show of the active script
  of an owner. It holds wherever the rules of the tables hold (`seenAlike_of_schema`), so after all
  that clients may do to the tables, rows added as they are and batches taken back included
  (`seenAlike_runSession`).
-/

namespace FilterStore

namespace Repository

variable {owner name : String} {db : Database}

/-! ### The active script and its date -/

/-- What is answered as the active script has a date. -/
lemma isSome_activatedAt_of_active (hdb : db.Schema) {s : Script}
    (h : (active owner db).result = .ok s) : s.activatedAt.isSome = true := by
  cases ho : checkOwner owner with
  | error e =>
      rw [active, afterChecks_of_error ho] at h
      cases h
  | ok u =>
      rw [active_eq ho] at h
      rcases hfind : db.findActive owner with f | _ | p
      · rw [hfind] at h
        cases h
      · rw [hfind] at h
        cases h
      · rw [hfind] at h
        cases h
        exact Database.isSome_date_of_findActive hdb hfind

/-- The date is refused for the same reasons as the content. -/
lemma result_getActivationDate_error_iff (hdb : db.Schema) {e : Failure} :
    (getActivationDate owner db).result = .error e ↔ (getActive owner db).result = .error e := by
  rw [getActivationDate, getActive, Outcome.andThen, Outcome.map]
  cases hactive : (active owner db).result with
  | error f => simp only [Except.bind, Except.map, Except.error.injEq]
  | ok s =>
      obtain ⟨t, ht⟩ := Option.isSome_iff_exists.mp (isSome_activatedAt_of_active hdb hactive)
      simp only [Except.bind, Except.map, ht, reduceCtorEq]

/-! ### Listings -/

variable {listing : List Summary}

/-- A listing shows what is read of the scripts of a valid owner. -/
lemma result_list_eq_ok_iff :
    (list owner db).result = .ok listing ↔
      checkOwner owner = .ok () ∧ ∃ l, db.findAll owner = .ok l ∧ listing = l.map Script.summary := by
  cases ho : checkOwner owner with
  | error e =>
      rw [list, afterChecks_of_error ho]
      simp only [reduceCtorEq, false_and]
  | ok u =>
      rw [list_eq ho]
      cases hall : db.findAll owner with
      | error f => simp only [Outcome.refused, reduceCtorEq, false_and, exists_false, and_false]
      | ok l => simp only [Except.ok.injEq, true_and, exists_eq_left', eq_comm]

/-- An entry is listed exactly if its script is found. -/
lemma mem_listing_iff (hdb : db.Schema) (h : (list owner db).result = .ok listing)
    {entry : Summary} :
    entry ∈ listing ↔
      ∃ s, db.findScript owner entry.name = .ok (some s) ∧ s.active = entry.active := by
  obtain ⟨-, l, hall, rfl⟩ := result_list_eq_ok_iff.mp h
  simp only [List.mem_map, Database.findScript_eq_some_iff_of_findAll hdb hall]
  constructor
  · rintro ⟨s, hs, rfl⟩
    exact ⟨s, ⟨hs, rfl⟩, rfl⟩
  · rintro ⟨s, ⟨hs, hname⟩, hactive⟩
    refine ⟨s, hs, ?_⟩
    rw [Script.summary, hname, hactive]

/-- At most one entry is listed as active. -/
lemma length_listing_le_one (hdb : db.Schema) (h : (list owner db).result = .ok listing) :
    (listing.filter Summary.active).length ≤ 1 := by
  obtain ⟨-, l, hall, rfl⟩ := result_list_eq_ok_iff.mp h
  rw [List.filter_map, List.length_map]
  exact Database.length_active_le_one hdb hall

/-- What is listed as active is the active script. -/
lemma result_active_of_listed (hdb : db.Schema) (h : (list owner db).result = .ok listing)
    {entry : Summary} (hentry : entry ∈ listing) (hactive : entry.active = true) :
    ∃ s, db.findScript owner entry.name = .ok (some s) ∧ (active owner db).result = .ok s := by
  obtain ⟨ho, -⟩ := result_list_eq_ok_iff.mp h
  obtain ⟨s, hfind, hs⟩ := (mem_listing_iff hdb h).mp hentry
  have hfound : db.findActive owner = .ok (some s) :=
    Database.findActive_of_findScript hdb hfind (hs.trans hactive)
  refine ⟨s, hfind, ?_⟩
  rw [active_eq ho, hfound]

/-- Its content is what is got under its name. -/
lemma result_getActive_of_listed (hdb : db.Schema) (h : (list owner db).result = .ok listing)
    {entry : Summary} (hentry : entry ∈ listing) (hactive : entry.active = true) :
    (getActive owner db).result = (get owner entry.name db).result := by
  obtain ⟨ho, -⟩ := result_list_eq_ok_iff.mp h
  obtain ⟨s, hfind, hs⟩ := result_active_of_listed hdb h hentry hactive
  rw [getActive, Outcome.map, hs, get_eq ho, hfind]
  rfl

/-- Where a listing is given, there is an active script exactly if one is listed. -/
lemma result_getActive_iff_listed (hdb : db.Schema) (h : (list owner db).result = .ok listing) :
    (∃ content, (getActive owner db).result = .ok content) ↔ ∃ entry ∈ listing, entry.active = true := by
  constructor
  · rintro ⟨content, hcontent⟩
    obtain ⟨ho, l, hall, rfl⟩ := result_list_eq_ok_iff.mp h
    rw [getActive, Outcome.map, active_eq ho, Database.findActive_of_findAll hdb hall] at hcontent
    cases hfound : l.find? (fun s => s.active) with
    | none =>
        rw [hfound] at hcontent
        cases hcontent
    | some s =>
        have hactive : s.active = true := List.find?_some hfound
        exact ⟨s.summary, List.mem_map_of_mem (List.mem_of_find?_eq_some hfound), hactive⟩
  · rintro ⟨entry, hentry, hactive⟩
    obtain ⟨s, -, hs⟩ := result_active_of_listed hdb h hentry hactive
    refine ⟨s.content, ?_⟩
    rw [getActive, Outcome.map, hs]
    rfl

/-- A script is kept from deletion as the active one exactly if it is listed as active. -/
lemma result_delete_iff_listed (hdb : db.Schema) (h : (list owner db).result = .ok listing)
    {o n : String} :
    (delete owner name db).result = .error (.scriptActive n o) ↔
      n = name ∧ o = owner ∧ ⟨name, true⟩ ∈ listing := by
  obtain ⟨ho, -⟩ := result_list_eq_ok_iff.mp h
  rw [mem_listing_iff hdb h, delete_eq ho]
  rcases hfind : db.findScript owner name with f | _ | s
  · simp only [Outcome.refused, Except.error.injEq, reduceCtorEq, false_and, exists_false, and_false]
  · simp only [Outcome.refused, Except.error.injEq, Except.ok.injEq, reduceCtorEq, false_and,
      exists_false, and_false]
  · by_cases hactive : s.active = true
    · simp only [if_pos hactive]
      constructor
      · intro hrefused
        cases hrefused
        exact ⟨rfl, rfl, s, rfl, hactive⟩
      · rintro ⟨rfl, rfl, -⟩
        rfl
    · simp only [if_neg hactive]
      constructor
      · intro hdone
        cases hdone
      · rintro ⟨-, -, p, hp, hpa⟩
        cases hp
        exact absurd hpa hactive

end Repository

/-! ### Coherence -/

open Repository

/-- What the methods of the repository show of the active script of an owner. -/
structure Database.SeenAlike (db : Database) (owner : String) : Prop where
  /-- At most one row of the owner is marked. -/
  one_marked : (db.scripts.filter fun r => r.owner = owner ∧ r.active = 1).length ≤ 1
  /-- The date of activation is refused exactly if the content is, for the same reason. -/
  same_refusal : ∀ e,
    (getActivationDate owner db).result = .error e ↔ (getActive owner db).result = .error e
  /-- An active script never lacks its date. -/
  dated : ∀ s, (active owner db).result = .ok s → s.activatedAt.isSome = true
  /-- A listing shows at most one script as active. -/
  one_listed : ∀ listing, (list owner db).result = .ok listing →
    (listing.filter Summary.active).length ≤ 1
  /-- Where a listing is given, there is an active script exactly if one is listed. -/
  found_iff_listed : ∀ listing, (list owner db).result = .ok listing →
    ((∃ content, (getActive owner db).result = .ok content) ↔
      ∃ entry ∈ listing, entry.active = true)
  /-- The content of the active script is that of the script listed as active. -/
  same_content : ∀ listing, (list owner db).result = .ok listing →
    ∀ entry ∈ listing, entry.active = true →
      (getActive owner db).result = (get owner entry.name db).result
  /-- Exactly the script listed as active is kept from deletion as the active one. -/
  kept_iff_listed : ∀ listing, (list owner db).result = .ok listing → ∀ name n o,
    (delete owner name db).result = .error (.scriptActive n o) ↔
      n = name ∧ o = owner ∧ ⟨name, true⟩ ∈ listing

/-- The rules of the tables make the active script look alike from all sides. -/
theorem Database.seenAlike_of_schema {db : Database} (hdb : db.Schema) (owner : String) :
    db.SeenAlike owner where
  one_marked := hdb.length_marked_le_one owner
  same_refusal _ := result_getActivationDate_error_iff hdb
  dated _ h := isSome_activatedAt_of_active hdb h
  one_listed _ h := length_listing_le_one hdb h
  found_iff_listed _ h := result_getActive_iff_listed hdb h
  same_content _ h _ hentry hactive := result_getActive_of_listed hdb h hentry hactive
  kept_iff_listed _ h _ _ _ := result_delete_iff_listed hdb h

/-- **One coherent view of the active script**: whatever clients did to the tables from the empty
database on, by operations, by statements with any script or any row, and by batches that were kept
or taken back, the active script of every owner looks alike from all sides. -/
theorem seenAlike_runSession (session : List (Instant × Request)) (owner : String) :
    (runSession session .empty).2.SeenAlike owner := by
  have hdb : (runSession session .empty).2.Schema :=
    runSession_preserves (fun call _ _ hafter => call.2.schema_run call.1 hafter)
      Database.schema_empty
  exact Database.seenAlike_of_schema hdb owner

/-- A row with a mark other than 1 is added without a date, and both sides show it as inactive. -/
example :
    let row : ScriptRow := ⟨"ann", "day", "keep;", 5, 2, none⟩
    let db := (runSession [(.epoch, .statement (.insertScript row))] .empty).2
    (list "ann" db).result = .ok [⟨"day", false⟩] ∧
      (getActive "ann" db).result = .error (.noActiveScript "ann") := by
  decide +kernel

end FilterStore
