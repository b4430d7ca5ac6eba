import FilterStore.Proofs.Store.Lookup

/-!
What the statements do to the tables.

* **Writes.** `store`, `storeLimit`, `deleteScript` and `deleteLimit` are the changes that statements
  make. `upsertScript_eq` says when storing a script is refused, and for which of three reasons in
  which order; a database that `Takes` a script stores it (`upsertScript_of_takes`).
* **Rules.** Each change keeps the rules of the tables: a stored script if it is taken
  (`Schema.store`), and several in turn (`Schema.storeAll`), the others always.
* **Lookups.** After a change the lookups find what was written and otherwise what they found before
  (`findScript_store`, `findScript_deleteScript`, `findLimit_storeLimit`, `findLimit_deleteLimit`).
-/

namespace FilterStore

namespace Database

variable {db : Database} {owner name : String}

/-! ### Writes -/

/-- The database with a script at its place, instead of the row of its owner and name. -/
def store (s : Script) (db : Database) : Database :=
  { db with scripts := Table.put s.stored db.scripts }

/-- The database with a limit under a key, instead of the entry of this key. -/
def storeLimit (key : QuotaKey) (limit : Limit) (db : Database) : Database :=
  { db with quotas := Table.put (limit.stored key) db.quotas }

/-- The database with scripts stored one after another. -/
def storeAll (scripts : List Script) (db : Database) : Database :=
  scripts.foldl (fun db s => db.store s) db

/-- No other script of the owner is marked. -/
def NoOtherMarked (db : Database) (owner name : String) : Prop :=
  ∀ r ∈ db.scripts, r.owner = owner → r.Marked → r.name = name

lemma otherMarked_eq_false_iff : db.otherMarked owner name = false ↔ db.NoOtherMarked owner name := by
  simp only [otherMarked, NoOtherMarked, List.any_eq_false, decide_eq_true_eq, not_and, not_not]

/-- Beside the active script of an owner no other one is marked. -/
lemma noOtherMarked_of_findActive (h : db.Schema) {s : Script}
    (hs : db.findActive owner = .ok (some s)) : db.NoOtherMarked owner s.name := by
  obtain ⟨q, hq, hqo, hqm, hqs⟩ := shows_of_findActive h hs
  intro r hr hro hrm
  rw [hqs.name]
  exact h.one_marked r hr q hq hrm hqm (hro.trans hqo.symm)

/-- Without an active script no script of the owner is marked. -/
lemma noOtherMarked_of_findActive_none (h : db.findActive owner = .ok none) (name : String) :
    db.NoOtherMarked owner name := fun r hr hro hrm =>
  absurd hrm (activeRow?_eq_none_iff.mp (optionMapM_eq_none_iff.mp h) r hr hro)

/-- Beside an active script found under its name no other one is marked. -/
lemma noOtherMarked_of_findScript (h : db.Schema) {s : Script}
    (hs : db.findScript owner name = .ok (some s)) (ha : s.active = true) :
    db.NoOtherMarked owner name := by
  obtain ⟨q, hq, hqo, hqn, hqs⟩ := shows_of_findScript h hs
  have hqm : q.Marked := (hqs.marked_iff (h.coherent q hq)).mpr ha
  intro r hr hro hrm
  rw [← hqn]
  exact h.one_marked r hr q hq hrm hqm (hro.trans hqo.symm)

/-- Storing a script is refused if its size does not fit, if mark and date disagree, or if it is
marked beside another marked script of the owner, in this order, and succeeds otherwise. -/
theorem upsertScript_eq (s : Script) (db : Database) :
    db.upsertScript s =
      if ¬ s.Storable then .error (.scriptTooLarge s.name)
      else if ¬ s.Coherent then .error (.storage .dateWithoutMark)
      else if s.active = true ∧ db.otherMarked s.owner s.name = true then
        .error (.storage .secondActive)
      else .ok (db.store s) := by
  rw [upsertScript, Script.row_eq]
  by_cases h : s.Storable
  · simp only [h, if_true, not_true, if_false, bind, Except.bind, Script.stored_coherent,
      Script.stored_marked, Script.stored_owner, Script.stored_name]
    rfl
  · simp only [h, if_false, not_false_eq_true, if_true, bind, Except.bind]

/-- The script can be stored. -/
structure Takes (db : Database) (s : Script) : Prop where
  /-- Its size fits the column. -/
  storable : s.Storable
  /-- Its mark agrees with its date. -/
  coherent : s.Coherent
  /-- If it is marked, it has no marked rival. -/
  unrivalled : s.active = true → db.NoOtherMarked s.owner s.name

/-- The scripts can be stored one after another. -/
def TakesInTurn : Database → List Script → Prop
  | _, [] => True
  | db, s :: rest => db.Takes s ∧ (db.store s).TakesInTurn rest

/-- A script that is taken is stored. -/
lemma upsertScript_of_takes {s : Script} (h : db.Takes s) : db.upsertScript s = .ok (db.store s) := by
  rw [upsertScript_eq, if_neg (not_not.mpr h.storable), if_neg (not_not.mpr h.coherent), if_neg]
  rintro ⟨hactive, hother⟩
  rw [otherMarked_eq_false_iff.mpr (h.unrivalled hactive)] at hother
  cases hother

/-- Only a script that is taken is stored. -/
lemma takes_of_upsertScript {s : Script} {after : Database} (h : db.upsertScript s = .ok after) :
    db.Takes s ∧ after = db.store s := by
  rw [upsertScript_eq] at h
  split_ifs at h with hstorable hcoherent hother
  refine ⟨⟨hstorable, hcoherent, fun hactive => ?_⟩, (Except.ok.inj h).symm⟩
  rw [← otherMarked_eq_false_iff, Bool.eq_false_iff]
  exact fun hmarked => hother ⟨hactive, hmarked⟩

/-- A script without mark and date is taken beside all others. -/
lemma takes_deactivate {s : Script} (h : s.Storable) : db.Takes s.deactivate :=
  ⟨h, s.coherent_deactivate, nofun⟩

/-- A limit that fits its column is stored. -/
lemma upsertLimit_of_storable {limit : Limit} (h : limit.Storable) (key : QuotaKey) :
    db.upsertLimit key limit = .ok (db.storeLimit key limit) := by
  rw [upsertLimit, Limit.row_of_storable h]
  rfl

/-- A limit that does not fit its column is refused. -/
lemma upsertLimit_of_ge {count : UInt64} (h : columnBound ≤ count.toNat) (key : QuotaKey) :
    db.upsertLimit key (.bytes count) = .error (.limitTooLarge count) := by
  rw [upsertLimit, Limit.row_of_ge h]
  rfl

/-- A limit that is stored takes the place of the entry of its key. -/
lemma eq_storeLimit_of_upsertLimit {key : QuotaKey} {limit : Limit} {after : Database}
    (h : db.upsertLimit key limit = .ok after) : after = db.storeLimit key limit := by
  rcases limit.storable_or with hl | ⟨count, rfl, hl⟩
  · rw [upsertLimit_of_storable hl] at h
    exact (Except.ok.inj h).symm
  · rw [upsertLimit_of_ge hl] at h
    cases h

/-! ### Rows -/

lemma mem_store (h : db.Schema) {s : Script} {r : ScriptRow} :
    r ∈ (db.store s).scripts ↔
      r = s.stored ∨ r ∈ db.scripts ∧ ¬ (r.owner = s.owner ∧ r.name = s.name) := by
  rw [store, Table.mem_put h.scripts_sorted]
  simp

lemma mem_deleteScript {r : ScriptRow} :
    r ∈ (db.deleteScript owner name).scripts ↔
      r ∈ db.scripts ∧ ¬ (r.owner = owner ∧ r.name = name) := by
  rw [deleteScript, Table.mem_erase]
  simp

lemma mem_storeLimit (h : db.Schema) {key : QuotaKey} {limit : Limit} {r : QuotaRow} :
    r ∈ (db.storeLimit key limit).quotas ↔
      r = limit.stored key ∨ r ∈ db.quotas ∧ r.key ≠ key.storageKey := by
  rw [storeLimit, Table.mem_put h.quotas_sorted]
  rfl

lemma mem_deleteLimit {key : QuotaKey} {r : QuotaRow} :
    r ∈ (db.deleteLimit key).quotas ↔ r ∈ db.quotas ∧ r.key ≠ key.storageKey :=
  Table.mem_erase

/-! ### Rules -/

instance {α κ : Type} [Keyed α κ] [KeyOrder κ] (t : List α) : Decidable (Table.Sorted t) :=
  inferInstanceAs (Decidable (List.Pairwise _ _))

/-- Whether a database keeps the rules can be computed. -/
instance (db : Database) : Decidable db.Schema :=
  decidable_of_iff
    (Table.Sorted db.scripts ∧ Table.Sorted db.quotas ∧ (∀ r ∈ db.scripts, r.Coherent) ∧
      ∀ r ∈ db.scripts, ∀ q ∈ db.scripts, r.Marked → q.Marked → r.owner = q.owner → r.name = q.name)
    ⟨fun ⟨hs, hq, hc, hm⟩ => ⟨hs, hq, hc, hm⟩,
      fun h => ⟨h.scripts_sorted, h.quotas_sorted, h.coherent, h.one_marked⟩⟩

/-- Storing a script that is taken keeps the rules. -/
theorem Schema.store (h : db.Schema) {s : Script} (ht : db.Takes s) : (db.store s).Schema where
  scripts_sorted := h.scripts_sorted.put
  quotas_sorted := h.quotas_sorted
  coherent r hr := by
    rcases (mem_store h).mp hr with rfl | ⟨hr, -⟩
    · exact s.stored_coherent.mpr ht.coherent
    · exact h.coherent r hr
  one_marked r hr q hq hrm hqm ho := by
    rcases (mem_store h).mp hr with rfl | ⟨hr, -⟩ <;> rcases (mem_store h).mp hq with rfl | ⟨hq, -⟩
    · rfl
    · exact (ht.unrivalled (s.stored_marked.mp hrm) q hq ho.symm hqm).symm
    · exact ht.unrivalled (s.stored_marked.mp hqm) r hr ho hrm
    · exact h.one_marked r hr q hq hrm hqm ho

/-- Storing scripts that are taken in turn keeps the rules. -/
theorem Schema.storeAll {scripts : List Script} (h : db.Schema) (ht : db.TakesInTurn scripts) :
    (db.storeAll scripts).Schema := by
  induction scripts generalizing db with
  | nil => exact h
  | cons s rest ih => exact ih (h.store ht.1) ht.2

/-- After several scripts are stored, each row was there before or is that of one of them. -/
lemma mem_storeAll {scripts : List Script} (h : db.Schema) (ht : db.TakesInTurn scripts)
    {r : ScriptRow} (hr : r ∈ (db.storeAll scripts).scripts) :
    r ∈ db.scripts ∨ ∃ s ∈ scripts, r = s.stored := by
  induction scripts generalizing db with
  | nil => exact .inl hr
  | cons s rest ih =>
      rcases ih (h.store ht.1) ht.2 hr with hr | ⟨q, hq, rfl⟩
      · rcases (mem_store h).mp hr with rfl | ⟨hr, -⟩
        · exact .inr ⟨s, List.mem_cons_self, rfl⟩
        · exact .inl hr
      · exact .inr ⟨q, List.mem_cons_of_mem s hq, rfl⟩

lemma quotas_storeAll (scripts : List Script) (db : Database) :
    (db.storeAll scripts).quotas = db.quotas := by
  induction scripts generalizing db with
  | nil => rfl
  | cons s rest ih => exact ih (db.store s)

theorem Schema.deleteScript (h : db.Schema) : (db.deleteScript owner name).Schema where
  scripts_sorted := h.scripts_sorted.erase
  quotas_sorted := h.quotas_sorted
  coherent r hr := h.coherent r (mem_deleteScript.mp hr).1
  one_marked r hr q hq := h.one_marked r (mem_deleteScript.mp hr).1 q (mem_deleteScript.mp hq).1

theorem Schema.storeLimit (h : db.Schema) {key : QuotaKey} {limit : Limit} :
    (db.storeLimit key limit).Schema where
  scripts_sorted := h.scripts_sorted
  quotas_sorted := h.quotas_sorted.put
  coherent := h.coherent
  one_marked := h.one_marked

theorem Schema.deleteLimit (h : db.Schema) {key : QuotaKey} : (db.deleteLimit key).Schema where
  scripts_sorted := h.scripts_sorted
  quotas_sorted := h.quotas_sorted.erase
  coherent := h.coherent
  one_marked := h.one_marked

/-- A row that is added keeps the rules, whatever it holds. -/
theorem Schema.insertScript (h : db.Schema) {row : ScriptRow} {after : Database}
    (hrow : db.insertScript row = .ok after) : after.Schema := by
  rw [Database.insertScript] at hrow
  split_ifs at hrow with hcoherent hrival hfound
  obtain rfl := Except.ok.inj hrow
  have hmem : ∀ r, r ∈ Table.put row db.scripts → r = row ∨ r ∈ db.scripts := fun r hr =>
    ((Table.mem_put h.scripts_sorted).mp hr).imp_right And.left
  -- a marked row was added beside no other marked row of its owner
  have halone : row.Marked → ∀ r ∈ db.scripts, r.owner = row.owner → ¬ r.Marked := by
    intro hmarked
    rw [← activeRow?_eq_none_iff, ← Option.not_isSome_iff_eq_none]
    exact fun hsome => hrival ⟨hmarked, hsome⟩
  refine ⟨h.scripts_sorted.put, h.quotas_sorted, fun r hr => ?_, fun r hr q hq hrm hqm ho => ?_⟩
  · rcases hmem r hr with rfl | hr
    · exact hcoherent
    · exact h.coherent r hr
  · rcases hmem r hr with rfl | hr' <;> rcases hmem q hq with rfl | hq'
    · rfl
    · exact absurd hqm (halone hrm q hq' ho.symm)
    · exact absurd hrm (halone hqm r hr' ho)
    · exact h.one_marked r hr' q hq' hrm hqm ho

theorem Schema.insertQuota (h : db.Schema) {row : QuotaRow} {after : Database}
    (hrow : db.insertQuota row = .ok after) : after.Schema := by
  rw [Database.insertQuota] at hrow
  split_ifs at hrow with hfound
  obtain rfl := Except.ok.inj hrow
  exact ⟨h.scripts_sorted, h.quotas_sorted.put, h.coherent, h.one_marked⟩

/-- Once the active script of an owner is stored without mark, no script of the owner is marked. -/
lemma noOtherMarked_store_deactivate (h : db.Schema) {s : Script}
    (hs : db.findActive owner = .ok (some s)) (name : String) :
    (db.store s.deactivate).NoOtherMarked owner name := by
  obtain ⟨q, -, hqo, -, hqs⟩ := shows_of_findActive h hs
  intro r hr hro hrm
  rcases (mem_store h).mp hr with rfl | ⟨hr, hne⟩
  · cases s.deactivate.stored_marked.mp hrm
  · exact absurd ⟨hro.trans (hqs.owner.trans hqo).symm,
      noOtherMarked_of_findActive h hs r hr hro hrm⟩ hne

/-! ### Lookups -/

lemma scriptRow?_store (h : db.Schema) {s : Script} :
    (db.store s).scriptRow? owner name =
      if s.owner = owner ∧ s.name = name then some s.stored else db.scriptRow? owner name := by
  rw [scriptRow?, store, Table.find?_put h.scripts_sorted]
  simp only [ScriptRow.key_eq, ScriptKey.mk.injEq, Script.stored_owner, Script.stored_name]
  rfl

lemma scriptRow?_deleteScript {o n : String} :
    (db.deleteScript o n).scriptRow? owner name =
      if o = owner ∧ n = name then none else db.scriptRow? owner name := by
  rw [scriptRow?, deleteScript, Table.find?_erase]
  simp only [ScriptKey.mk.injEq]
  rfl

/-- A stored script is found, and under other names what was found before. -/
theorem findScript_store (h : db.Schema) {s : Script} (hs : s.Storable) (hc : s.Coherent)
    (hd : ∀ t ∈ s.activatedAt, t.Survives) :
    (db.store s).findScript owner name =
      if s.owner = owner ∧ s.name = name then .ok (some s) else db.findScript owner name := by
  rw [findScript, scriptRow?_store h]
  split_ifs with hkey
  · rw [Option.mapM_some, ScriptRow.script_stored hs hc hd]
    rfl
  · rfl

/-- A deleted script is not found, and under other names what was found before. -/
theorem findScript_deleteScript {o n : String} :
    (db.deleteScript o n).findScript owner name =
      if o = owner ∧ n = name then .ok none else db.findScript owner name := by
  rw [findScript, scriptRow?_deleteScript]
  split_ifs with hkey
  · rfl
  · rfl

/-- A stored limit is found, and under other keys what was found before. -/
theorem findLimit_storeLimit (h : db.Schema) {key k : QuotaKey} {limit : Limit}
    (hl : limit.Storable) :
    (db.storeLimit key limit).findLimit k =
      if key.storageKey = k.storageKey then .ok (some limit) else db.findLimit k := by
  have hstored : Keyed.key (limit.stored key) = key.storageKey := rfl
  rw [findLimit, quotaRow?, storeLimit, Table.find?_put h.quotas_sorted, hstored]
  split_ifs with hkey
  · rw [Option.mapM_some, Limit.meaning_stored hl]
    rfl
  · rfl

/-- A deleted entry is not found, and under other keys what was found before. -/
theorem findLimit_deleteLimit {key k : QuotaKey} :
    (db.deleteLimit key).findLimit k =
      if key.storageKey = k.storageKey then .ok none else db.findLimit k := by
  rw [findLimit, quotaRow?, deleteLimit, Table.find?_erase]
  split_ifs with hkey
  · rfl
  · rfl

end Database

end FilterStore
