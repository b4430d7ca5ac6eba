import FilterStore.Proofs.Store.Statement

/-!
Whose rows a database holds.

* **Classes of rows.** `Database.SameRows` compares two databases on the scripts of some owners and
  on the quota entries of some keys, and says nothing about the other rows.
* **Queries.** On databases with the same rows of an owner, every query about the owner finds the
  same, unreadable rows included (`SameRows.findAll`, `SameRows.findActive`, `SameRows.findLimit`).
* **Statements.** The same statement on both databases keeps their rows the same (`SameRows.store`
  and so on, `SameRows.upsertScript` also for the refusals), and a statement about other rows leaves
  the rows of the class alone (`sameRows_store` and so on).
* **All rows but some.** `Database.SameBut` says that nothing is different but certain scripts, which
  stay the only ones as these are stored (`SameBut.store`).
-/

namespace FilterStore

namespace Table

variable {α κ : Type} [Keyed α κ] [DecidableEq κ] [KeyOrder κ]

/-- Tables in order with the same rows are equal. -/
lemma eq_of_mem_iff {t u : List α} (ht : Sorted t) (hu : Sorted u) (h : ∀ r, r ∈ t ↔ r ∈ u) :
    t = u := by
  refine eq_of_find?_eq ht hu fun k => ?_
  apply Option.ext
  intro r
  rw [find?_eq_some_iff ht, find?_eq_some_iff hu, h]

end Table

namespace Database

/-! ### Classes of rows -/

/-- Two databases hold the same scripts of some owners and the same quota entries of some keys. -/
structure SameRows (owners keys : String → Prop) (db₁ db₂ : Database) : Prop where
  /-- The scripts of these owners are the same. -/
  scripts : ∀ r : ScriptRow, owners r.owner → (r ∈ db₁.scripts ↔ r ∈ db₂.scripts)
  /-- The entries of these keys are the same. -/
  quotas : ∀ r : QuotaRow, keys r.key → (r ∈ db₁.quotas ↔ r ∈ db₂.quotas)

variable {owners keys : String → Prop} {db db₁ db₂ db₃ : Database} {owner name : String}
  {key : QuotaKey}

namespace SameRows

lemma refl (db : Database) : SameRows owners keys db db :=
  ⟨fun _ _ => Iff.rfl, fun _ _ => Iff.rfl⟩

lemma symm (h : SameRows owners keys db₁ db₂) : SameRows owners keys db₂ db₁ :=
  ⟨fun r hr => (h.scripts r hr).symm, fun r hr => (h.quotas r hr).symm⟩

lemma trans (h : SameRows owners keys db₁ db₂) (h' : SameRows owners keys db₂ db₃) :
    SameRows owners keys db₁ db₃ :=
  ⟨fun r hr => (h.scripts r hr).trans (h'.scripts r hr),
    fun r hr => (h.quotas r hr).trans (h'.quotas r hr)⟩

/-! ### Queries -/

section Queries

variable (h : SameRows owners keys db₁ db₂) (h₁ : db₁.Schema) (h₂ : db₂.Schema)

include h h₁ h₂

lemma scriptRows (ho : owners owner) : db₁.scriptRows owner = db₂.scriptRows owner := by
  refine Table.eq_of_mem_iff (h₁.scripts_sorted.filter _) (h₂.scripts_sorted.filter _) fun r => ?_
  show r ∈ db₁.scriptRows owner ↔ r ∈ db₂.scriptRows owner
  rw [mem_scriptRows, mem_scriptRows]
  refine and_congr_left fun hr => h.scripts r ?_
  rwa [hr]

lemma findAll (ho : owners owner) : db₁.findAll owner = db₂.findAll owner := by
  rw [Database.findAll, Database.findAll, h.scriptRows h₁ h₂ ho]

lemma findScript (ho : owners owner) (name : String) :
    db₁.findScript owner name = db₂.findScript owner name := by
  rw [Database.findScript, Database.findScript, scriptRow?_eq_find?, scriptRow?_eq_find?,
    h.scriptRows h₁ h₂ ho]

lemma findActive (ho : owners owner) : db₁.findActive owner = db₂.findActive owner := by
  rw [Database.findActive, Database.findActive, activeRow?_eq_find?, activeRow?_eq_find?,
    h.scriptRows h₁ h₂ ho]

lemma scriptRow? (ho : owners owner) (name : String) :
    db₁.scriptRow? owner name = db₂.scriptRow? owner name := by
  rw [scriptRow?_eq_find?, scriptRow?_eq_find?, h.scriptRows h₁ h₂ ho]

lemma quotaRow? (hk : keys key.storageKey) : db₁.quotaRow? key = db₂.quotaRow? key := by
  apply Option.ext
  intro r
  rw [quotaRow?_eq_some_iff h₁, quotaRow?_eq_some_iff h₂]
  refine and_congr_left fun hr => h.quotas r ?_
  rwa [hr]

lemma findLimit (hk : keys key.storageKey) : db₁.findLimit key = db₂.findLimit key := by
  rw [Database.findLimit, Database.findLimit, h.quotaRow? h₁ h₂ hk]

end Queries

/-- A marked rival is there in both databases or in none. -/
lemma otherMarked (h : SameRows owners keys db₁ db₂) (ho : owners owner) (name : String) :
    db₁.otherMarked owner name = db₂.otherMarked owner name := by
  rw [← Bool.not_inj_iff, Bool.eq_iff_iff, Bool.not_eq_true', Bool.not_eq_true',
    otherMarked_eq_false_iff, otherMarked_eq_false_iff, NoOtherMarked, NoOtherMarked]
  refine forall_congr' fun r => ?_
  constructor
  · intro hall hr hro
    exact hall ((h.scripts r (hro ▸ ho)).mpr hr) hro
  · intro hall hr hro
    exact hall ((h.scripts r (hro ▸ ho)).mp hr) hro

/-! ### The same statement on both databases -/

section Statements

variable (h : SameRows owners keys db₁ db₂)

include h

lemma store (h₁ : db₁.Schema) (h₂ : db₂.Schema) (s : Script) :
    SameRows owners keys (db₁.store s) (db₂.store s) where
  scripts r hr := by
    rw [mem_store h₁, mem_store h₂, h.scripts r hr]
  quotas := h.quotas

lemma deleteScript (owner name : String) :
    SameRows owners keys (db₁.deleteScript owner name) (db₂.deleteScript owner name) where
  scripts r hr := by
    rw [mem_deleteScript, mem_deleteScript, h.scripts r hr]
  quotas := h.quotas

lemma storeLimit (h₁ : db₁.Schema) (h₂ : db₂.Schema) (key : QuotaKey) (limit : Limit) :
    SameRows owners keys (db₁.storeLimit key limit) (db₂.storeLimit key limit) where
  scripts := h.scripts
  quotas r hr := by
    rw [mem_storeLimit h₁, mem_storeLimit h₂, h.quotas r hr]

lemma deleteLimit (key : QuotaKey) :
    SameRows owners keys (db₁.deleteLimit key) (db₂.deleteLimit key) where
  scripts := h.scripts
  quotas r hr := by
    rw [mem_deleteLimit, mem_deleteLimit, h.quotas r hr]

end Statements

/-- Storing a script of the class is refused in both databases for the same reason, or done in
both. -/
lemma upsertScript (h : SameRows owners keys db₁ db₂) {s : Script} (hs : owners s.owner) :
    (∃ e, db₁.upsertScript s = .error e ∧ db₂.upsertScript s = .error e) ∨
      db₁.upsertScript s = .ok (db₁.store s) ∧ db₂.upsertScript s = .ok (db₂.store s) := by
  rw [upsertScript_eq, upsertScript_eq, h.otherMarked hs]
  split_ifs
  · exact .inl ⟨_, rfl, rfl⟩
  · exact .inr ⟨rfl, rfl⟩
  · exact .inl ⟨_, rfl, rfl⟩
  · exact .inl ⟨_, rfl, rfl⟩

end SameRows

/-! ### Statements about other rows -/

lemma sameRows_store (hdb : db.Schema) {s : Script} (hs : ¬ owners s.owner) :
    SameRows owners keys db (db.store s) where
  scripts r hr := by
    rw [mem_store hdb]
    constructor
    · intro hmem
      exact .inr ⟨hmem, fun hkey => hs (hkey.1 ▸ hr)⟩
    · rintro (rfl | ⟨hmem, -⟩)
      · exact absurd hr hs
      · exact hmem
  quotas _ _ := Iff.rfl

lemma sameRows_deleteScript (ho : ¬ owners owner) :
    SameRows owners keys db (db.deleteScript owner name) where
  scripts r hr := by
    rw [mem_deleteScript]
    exact ⟨fun hmem => ⟨hmem, fun hkey => ho (hkey.1 ▸ hr)⟩, fun hmem => hmem.1⟩
  quotas _ _ := Iff.rfl

lemma sameRows_storeLimit (hdb : db.Schema) (hk : ¬ keys key.storageKey) {limit : Limit} :
    SameRows owners keys db (db.storeLimit key limit) where
  scripts _ _ := Iff.rfl
  quotas r hr := by
    rw [mem_storeLimit hdb]
    constructor
    · intro hmem
      exact .inr ⟨hmem, fun hkey => hk (hkey ▸ hr)⟩
    · rintro (rfl | ⟨hmem, -⟩)
      · exact absurd hr hk
      · exact hmem

lemma sameRows_deleteLimit (hk : ¬ keys key.storageKey) :
    SameRows owners keys db (db.deleteLimit key) where
  scripts _ _ := Iff.rfl
  quotas r hr := by
    rw [mem_deleteLimit]
    exact ⟨fun hmem => ⟨hmem, fun hkey => hk (hkey ▸ hr)⟩, fun hmem => hmem.1⟩

/-! ### All rows but some -/

/-- Nothing is different but the scripts of these owners and names: the row of any other script is
there before exactly if it is there after, and the quota entries are the same. -/
structure SameBut (touched : String → String → Prop) (db after : Database) : Prop where
  /-- The rows of other scripts are the same. -/
  scripts : ∀ r : ScriptRow, ¬ touched r.owner r.name → (r ∈ after.scripts ↔ r ∈ db.scripts)
  /-- The quota entries are the same. -/
  quotas : after.quotas = db.quotas

section SameBut

variable {touched : String → String → Prop}

lemma SameBut.refl (db : Database) : SameBut touched db db :=
  ⟨fun _ _ => Iff.rfl, rfl⟩

/-- A stored script is the only one that is touched. -/
lemma SameBut.store {after : Database} (h : SameBut touched db after) (hafter : after.Schema)
    {s : Script} (hs : touched s.owner s.name) : SameBut touched db (after.store s) where
  scripts r hr := by
    rw [mem_store hafter, ← h.scripts r hr]
    constructor
    · rintro (rfl | ⟨hmem, -⟩)
      · exact absurd hs hr
      · exact hmem
    · exact fun hmem => .inr ⟨hmem, fun hkey => hr (hkey.1 ▸ hkey.2 ▸ hs)⟩
  quotas := h.quotas

end SameBut

end Database

end FilterStore
