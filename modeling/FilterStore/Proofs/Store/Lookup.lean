import FilterStore.Proofs.Store.Rows

/-!
What the queries find.

* **Reading lists.** Reading a list of rows succeeds exactly if every row is read
  (`mapM_eq_ok_iff`), and what is found in the rows is what is found in the read list
  (`mapM_find?`).
* **Rows.** Under the rules of the tables a lookup finds the one row it is about
  (`scriptRow?_eq_some_iff`, `activeRow?_eq_some_iff`).
* **One listing, three queries.** Where the scripts of an owner can be read, `findScript` and
  `findActive` find their script in the listing (`findScript_of_findAll`, `findActive_of_findAll`),
  and conversely the lookups of all names determine the listing (`findAll_of_findScript`).
* **Faults.** A query fails exactly if a row it reads cannot be read (`findAll_fails_iff`,
  `findScript_fails_iff`, `findActive_fails_iff`, `findLimit_fails_iff`).
-/

namespace FilterStore

/-! ### Reading lists of rows -/

section Reading

variable {α β ε : Type} {f : α → Except ε β}

/-- A list is read exactly if each of its members is. -/
lemma mapM_eq_ok_iff {l : List α} {l' : List β} :
    l.mapM f = .ok l' ↔ List.Forall₂ (fun a b => f a = .ok b) l l' := by
  induction l generalizing l' with
  | nil =>
      rw [List.mapM_nil, List.forall₂_nil_left_iff]
      exact ⟨fun h => (Except.ok.inj h).symm, fun h => by rw [h]; rfl⟩
  | cons a l ih =>
      rw [List.mapM_cons, List.forall₂_cons_left_iff]
      cases ha : f a with
      | error e => simp [bind, Except.bind]
      | ok b =>
          cases hl : l.mapM f with
          | error e =>
              have hnone : ∀ u, ¬ List.Forall₂ (fun a b => f a = .ok b) l u := by
                intro u hu
                rw [← ih, hl] at hu
                cases hu
              simp [bind, Except.bind, hnone]
          | ok bs =>
              simp only [bind, Except.bind, pure, Except.pure, Except.ok.injEq]
              constructor
              · rintro rfl
                exact ⟨b, bs, rfl, ih.mp hl, rfl⟩
              · rintro ⟨c, u, rfl, hu, rfl⟩
                rw [← ih, hl] at hu
                rw [Except.ok.inj hu]

/-- A list that is not read has a member that is not read for the same reason. -/
lemma exists_of_mapM_eq_error {l : List α} {e : ε} (h : l.mapM f = .error e) :
    ∃ a ∈ l, f a = .error e := by
  induction l with
  | nil => cases h
  | cons a l ih =>
      rw [List.mapM_cons] at h
      cases ha : f a with
      | error e' =>
          simp only [ha, bind, Except.bind, Except.error.injEq] at h
          exact ⟨a, List.mem_cons_self, h ▸ ha⟩
      | ok b =>
          cases hl : l.mapM f with
          | error e' =>
              simp only [ha, hl, bind, Except.bind, Except.error.injEq] at h
              obtain ⟨c, hc, hfc⟩ := ih (h ▸ hl)
              exact ⟨c, List.mem_cons_of_mem a hc, hfc⟩
          | ok bs => simp [ha, hl, bind, Except.bind, pure, Except.pure] at h

/-- Reading a list fails exactly if it fails for a member. -/
lemma mapM_fails_iff {l : List α} :
    (∃ e, l.mapM f = .error e) ↔ ∃ a ∈ l, ∃ e, f a = .error e := by
  constructor
  · rintro ⟨e, h⟩
    obtain ⟨a, ha, hfa⟩ := exists_of_mapM_eq_error h
    exact ⟨a, ha, e, hfa⟩
  · rintro ⟨a, ha, e, hfa⟩
    cases hl : l.mapM f with
    | error e' => exact ⟨e', rfl⟩
    | ok l' =>
        obtain ⟨i, hi, rfl⟩ := List.getElem_of_mem ha
        have hread := List.Forall₂.get (mapM_eq_ok_iff.mp hl) (i := i) hi
          ((mapM_eq_ok_iff.mp hl).length_eq ▸ hi)
        rw [List.get_eq_getElem, hfa] at hread
        cases hread

/-- What is looked for by a test on rows is found by a test on what they read as, if the tests
agree on what is read. -/
lemma mapM_find? {l : List α} {l' : List β} {p : α → Bool} {q : β → Bool} (h : l.mapM f = .ok l')
    (hpq : ∀ a ∈ l, ∀ b, f a = .ok b → p a = q b) :
    (l.find? p).mapM f = .ok (l'.find? q) := by
  have hall := mapM_eq_ok_iff.mp h
  clear h
  induction hall with
  | nil => rfl
  | @cons a b l l' hab _ ih =>
      have hp := hpq a List.mem_cons_self b hab
      cases hq : q b with
      | true =>
          rw [List.find?_cons_of_pos (hp.trans hq), List.find?_cons_of_pos hq, Option.mapM_some, hab]
          rfl
      | false =>
          rw [List.find?_cons_of_neg (by simp [hp, hq]), List.find?_cons_of_neg (by simp [hq])]
          exact ih fun c hc => hpq c (List.mem_cons_of_mem a hc)

/-- A row that may be missing is read as `b` exactly if it is there and reads as `b`. -/
lemma optionMapM_eq_some_iff {o : Option α} {b : β} :
    o.mapM f = .ok (some b) ↔ ∃ a, o = some a ∧ f a = .ok b := by
  cases o with
  | none => simp [pure, Except.pure]
  | some a => cases ha : f a <;> simp [ha, Functor.map, Except.map]

lemma optionMapM_eq_none_iff {o : Option α} : o.mapM f = .ok none ↔ o = none := by
  cases o with
  | none => simp [pure, Except.pure]
  | some a => cases ha : f a <;> simp [ha, Functor.map, Except.map]

/-- A row that may be missing fails to be read exactly if it is there and fails to be read. -/
lemma optionMapM_eq_error_iff {o : Option α} {e : ε} :
    o.mapM f = .error e ↔ ∃ a, o = some a ∧ f a = .error e := by
  cases o with
  | none => simp [pure, Except.pure]
  | some a => cases ha : f a <;> simp [ha, Functor.map, Except.map]

end Reading

/-- If all rows of a kind have the same key, a table has at most one of them. -/
lemma Table.length_filter_le_one {α κ : Type} [Keyed α κ] [KeyOrder κ] {t : List α}
    (ht : Table.Sorted t) {p : α → Bool}
    (h : ∀ a ∈ t, ∀ b ∈ t, p a = true → p b = true → Keyed.key a = Keyed.key b) :
    (t.filter p).length ≤ 1 := by
  have hsorted : Table.Sorted (t.filter p) := ht.filter p
  generalize hrows : t.filter p = rows at hsorted
  have hmem : ∀ a ∈ rows, a ∈ t ∧ p a = true := by
    intro a ha
    rw [← hrows] at ha
    exact List.mem_filter.mp ha
  match rows, hsorted, hmem with
  | [], _, _ => exact Nat.zero_le 1
  | [_], _, _ => exact Nat.le_refl 1
  | a :: b :: _, hsorted, hmem =>
      obtain ⟨ha, hpa⟩ := hmem a List.mem_cons_self
      obtain ⟨hb, hpb⟩ := hmem b (List.mem_cons_of_mem a List.mem_cons_self)
      have hab := (List.pairwise_cons.mp hsorted).1 b List.mem_cons_self
      rw [h a ha b hb hpa hpb, KeyOrder.irrefl] at hab
      cases hab

namespace Database

variable {db : Database} {owner name : String}

/-! ### Rows -/

/-- The row of a script is the one with its owner and name. -/
lemma scriptRow?_eq_some_iff (h : db.Schema) {r : ScriptRow} :
    db.scriptRow? owner name = some r ↔ r ∈ db.scripts ∧ r.owner = owner ∧ r.name = name := by
  rw [scriptRow?, Table.find?_eq_some_iff h.scripts_sorted, ScriptRow.key_eq, ScriptKey.mk.injEq]

lemma scriptRow?_eq_none_iff :
    db.scriptRow? owner name = none ↔ ∀ r ∈ db.scripts, ¬ (r.owner = owner ∧ r.name = name) := by
  simp only [scriptRow?, Table.find?_eq_none_iff, ScriptRow.key_eq, ne_eq, ScriptKey.mk.injEq]

lemma mem_scriptRows {r : ScriptRow} : r ∈ db.scriptRows owner ↔ r ∈ db.scripts ∧ r.owner = owner := by
  simp [scriptRows]

/-- The row of a script, found among the rows of its owner. -/
lemma scriptRow?_eq_find? :
    db.scriptRow? owner name = (db.scriptRows owner).find? (fun r => r.name = name) := by
  rw [scriptRows, List.find?_filter, scriptRow?, Table.find?]
  congr 1
  funext r
  simp [Bool.decide_and]

/-- The marked row of an owner, found among the rows of the owner. -/
lemma activeRow?_eq_find? :
    db.activeRow? owner = (db.scriptRows owner).find? (fun r => r.Marked) := by
  rw [scriptRows, List.find?_filter, activeRow?]
  congr 1
  funext r
  simp [Bool.decide_and]

/-- The active row of an owner is the owner's marked one, of which there are no two. -/
lemma activeRow?_eq_some_iff (h : db.Schema) {r : ScriptRow} :
    db.activeRow? owner = some r ↔ r ∈ db.scripts ∧ r.owner = owner ∧ r.Marked := by
  constructor
  · intro hr
    have hprop := List.find?_some hr
    simp only [decide_eq_true_eq] at hprop
    exact ⟨List.mem_of_find?_eq_some hr, hprop⟩
  · rintro ⟨hr, ho, hm⟩
    cases hs : db.activeRow? owner with
    | none => exact absurd (List.find?_eq_none.mp hs r hr) (by simp [ho, hm])
    | some s =>
        have hsm := List.mem_of_find?_eq_some hs
        have hprop := List.find?_some hs
        simp only [decide_eq_true_eq] at hprop
        have hname := h.one_marked s hsm r hr hprop.2 hm (hprop.1.trans ho.symm)
        rw [h.scripts_sorted.eq_of_key_eq hsm hr (by simp [hname, hprop.1, ho])]

lemma activeRow?_eq_none_iff :
    db.activeRow? owner = none ↔ ∀ r ∈ db.scripts, r.owner = owner → ¬ r.Marked := by
  simp [activeRow?, List.find?_eq_none]

/-- The row of a quota entry is the one with its key. -/
lemma quotaRow?_eq_some_iff (h : db.Schema) {key : QuotaKey} {r : QuotaRow} :
    db.quotaRow? key = some r ↔ r ∈ db.quotas ∧ r.key = key.storageKey := by
  rw [quotaRow?, Table.find?_eq_some_iff h.quotas_sorted, QuotaRow.key_eq]

/-- No two rows share owner and name. -/
lemma Schema.nodup_keys (h : db.Schema) : (db.scripts.map fun r => (r.owner, r.name)).Nodup := by
  rw [List.Nodup, List.pairwise_map]
  refine h.scripts_sorted.imp fun {r q} hrq heq => ?_
  obtain ⟨ho, hn⟩ := Prod.mk.inj heq
  rw [ScriptRow.key_eq, ScriptRow.key_eq, ho, hn, KeyOrder.irrefl] at hrq
  cases hrq

/-- An owner has at most one marked row. -/
lemma Schema.length_marked_le_one (h : db.Schema) (owner : String) :
    (db.scripts.filter fun r => r.owner = owner ∧ r.Marked).length ≤ 1 := by
  refine Table.length_filter_le_one h.scripts_sorted fun r hr q hq hrp hqp => ?_
  obtain ⟨hro, hrm⟩ := of_decide_eq_true hrp
  obtain ⟨hqo, hqm⟩ := of_decide_eq_true hqp
  have ho : r.owner = q.owner := hro.trans hqo.symm
  rw [ScriptRow.key_eq, ScriptRow.key_eq, ho, h.one_marked r hr q hq hrm hqm ho]

/-! ### Single lookups -/

/-- What is found under a name is a script of this owner and name. -/
lemma shows_of_findScript (h : db.Schema) {s : Script}
    (hs : db.findScript owner name = .ok (some s)) :
    ∃ r ∈ db.scripts, r.owner = owner ∧ r.name = name ∧ r.Shows s := by
  obtain ⟨r, hr, hrs⟩ := optionMapM_eq_some_iff.mp hs
  obtain ⟨hmem, ho, hn⟩ := (scriptRow?_eq_some_iff h).mp hr
  exact ⟨r, hmem, ho, hn, ScriptRow.script_eq_ok_iff.mp hrs⟩

/-- What is found as the active script is shown by the marked row of the owner. -/
lemma shows_of_findActive (h : db.Schema) {s : Script}
    (hs : db.findActive owner = .ok (some s)) :
    ∃ r ∈ db.scripts, r.owner = owner ∧ r.Marked ∧ r.Shows s := by
  obtain ⟨r, hr, hrs⟩ := optionMapM_eq_some_iff.mp hs
  obtain ⟨hmem, ho, hm⟩ := (activeRow?_eq_some_iff h).mp hr
  exact ⟨r, hmem, ho, hm, ScriptRow.script_eq_ok_iff.mp hrs⟩

/-- What is found as the active script is active. -/
lemma active_of_findActive (h : db.Schema) {s : Script} (hs : db.findActive owner = .ok (some s)) :
    s.active = true := by
  obtain ⟨r, hr, -, hm, hrs⟩ := shows_of_findActive h hs
  exact (hrs.marked_iff (h.coherent r hr)).mp hm

/-- So it has a date. -/
lemma isSome_date_of_findActive (h : db.Schema) {s : Script}
    (hs : db.findActive owner = .ok (some s)) : s.activatedAt.isSome = true := by
  obtain ⟨r, -, -, -, hrs⟩ := shows_of_findActive h hs
  exact hrs.coherent.symm.trans (active_of_findActive h hs)

/-- What is found under a name belongs to the owner, whatever rows there are. -/
lemma owner_of_findScript {s : Script} (h : db.findScript owner name = .ok (some s)) :
    s.owner = owner := by
  obtain ⟨r, hr, hrs⟩ := optionMapM_eq_some_iff.mp h
  have hkey := List.find?_some hr
  simp only [ScriptRow.key_eq, ScriptKey.mk.injEq, decide_eq_true_eq] at hkey
  rw [(ScriptRow.script_eq_ok_iff.mp hrs).owner, hkey.1]

/-- So does what is found as the active script. -/
lemma owner_of_findActive {s : Script} (h : db.findActive owner = .ok (some s)) :
    s.owner = owner := by
  obtain ⟨r, hr, hrs⟩ := optionMapM_eq_some_iff.mp h
  have hprop := List.find?_some hr
  simp only [decide_eq_true_eq] at hprop
  rw [(ScriptRow.script_eq_ok_iff.mp hrs).owner, hprop.1]

/-- A script that is found and active is the active script. -/
lemma findActive_of_findScript (h : db.Schema) {s : Script}
    (hs : db.findScript owner name = .ok (some s)) (ha : s.active = true) :
    db.findActive owner = .ok (some s) := by
  obtain ⟨r, hr, ho, -, hrs⟩ := shows_of_findScript h hs
  have hm : r.Marked := (hrs.marked_iff (h.coherent r hr)).mpr ha
  exact optionMapM_eq_some_iff.mpr
    ⟨r, (activeRow?_eq_some_iff h).mpr ⟨hr, ho, hm⟩, ScriptRow.script_eq_ok_iff.mpr hrs⟩

/-- If every name finds no active script, there is none. -/
lemma findActive_eq_none (h : db.Schema)
    (hnone : ∀ name, ∃ found, db.findScript owner name = .ok found ∧
      ∀ s ∈ found, s.active = false) : db.findActive owner = .ok none := by
  rw [findActive, optionMapM_eq_none_iff, activeRow?_eq_none_iff]
  intro r hr ho hm
  obtain ⟨found, hfound, hinactive⟩ := hnone r.name
  have hrow : db.scriptRow? owner r.name = some r :=
    (scriptRow?_eq_some_iff h).mpr ⟨hr, ho, rfl⟩
  cases found with
  | none => simp [optionMapM_eq_none_iff.mp hfound] at hrow
  | some s =>
      obtain ⟨q, hq, hqs⟩ := optionMapM_eq_some_iff.mp hfound
      cases hrow.symm.trans hq
      have ha := ((ScriptRow.script_eq_ok_iff.mp hqs).marked_iff (h.coherent r hr)).mp hm
      rw [hinactive s rfl] at ha
      cases ha

/-- A limit that is read is below `2^63`. -/
lemma lt_columnBound_of_findLimit {key : QuotaKey} {count : UInt64}
    (h : db.findLimit key = .ok (some (.bytes count))) : count.toNat < columnBound := by
  obtain ⟨r, -, hr⟩ := optionMapM_eq_some_iff.mp h
  exact QuotaRow.lt_columnBound_of_meaning hr

/-- A limit in force that is a number is below `2^63`. -/
lemma lt_columnBound_of_effectiveLimit {own default : Option Limit} {count : UInt64}
    (hown : db.findLimit (.owner owner) = .ok own) (hdefault : db.findLimit .default = .ok default)
    (h : effectiveLimit own default = .bytes count) : count.toNat < columnBound := by
  cases own with
  | some limit =>
      cases h
      exact lt_columnBound_of_findLimit hown
  | none =>
      cases default with
      | some limit =>
          cases h
          exact lt_columnBound_of_findLimit hdefault
      | none => cases h

/-! ### One listing, three queries -/

/-- A listed script is looked up in the listing. -/
lemma findScript_of_findAll {l : List Script} (h : db.findAll owner = .ok l) :
    db.findScript owner name = .ok (l.find? fun s => s.name = name) := by
  rw [findScript, scriptRow?_eq_find?]
  refine mapM_find? h fun r _ s hrs => ?_
  rw [(ScriptRow.script_eq_ok_iff.mp hrs).name]

/-- The active script is found in the listing. -/
lemma findActive_of_findAll (hdb : db.Schema) {l : List Script} (h : db.findAll owner = .ok l) :
    db.findActive owner = .ok (l.find? fun s => s.active) := by
  rw [findActive, activeRow?_eq_find?]
  refine mapM_find? h fun r hr s hrs => ?_
  have hmark := (ScriptRow.script_eq_ok_iff.mp hrs).marked_iff
    (hdb.coherent r (mem_scriptRows.mp hr).1)
  rw [Bool.eq_iff_iff, decide_eq_true_iff, hmark]

/-- The listing fails exactly if a row of the owner cannot be read. -/
lemma findAll_fails_iff :
    (∃ f, db.findAll owner = .error f) ↔ ∃ r ∈ db.scripts, r.owner = owner ∧ r.Unreadable := by
  rw [findAll, mapM_fails_iff]
  simp only [mem_scriptRows, ScriptRow.script_eq_error_iff, and_assoc]

/-- Looking a script up fails exactly if its row cannot be read. -/
lemma findScript_fails_iff (h : db.Schema) :
    (∃ f, db.findScript owner name = .error f) ↔
      ∃ r ∈ db.scripts, r.owner = owner ∧ r.name = name ∧ r.Unreadable := by
  simp only [findScript, optionMapM_eq_error_iff, scriptRow?_eq_some_iff h,
    ← ScriptRow.script_eq_error_iff]
  constructor
  · rintro ⟨f, r, ⟨hr, ho, hn⟩, hf⟩
    exact ⟨r, hr, ho, hn, f, hf⟩
  · rintro ⟨r, hr, ho, hn, f, hf⟩
    exact ⟨f, r, ⟨hr, ho, hn⟩, hf⟩

/-- Looking the active script up fails exactly if the marked row cannot be read. -/
lemma findActive_fails_iff (h : db.Schema) :
    (∃ f, db.findActive owner = .error f) ↔
      ∃ r ∈ db.scripts, r.owner = owner ∧ r.Marked ∧ r.Unreadable := by
  simp only [findActive, optionMapM_eq_error_iff, activeRow?_eq_some_iff h,
    ← ScriptRow.script_eq_error_iff]
  constructor
  · rintro ⟨f, r, ⟨hr, ho, hm⟩, hf⟩
    exact ⟨r, hr, ho, hm, f, hf⟩
  · rintro ⟨r, hr, ho, hm, f, hf⟩
    exact ⟨f, r, ⟨hr, ho, hm⟩, hf⟩

/-- Looking a limit up fails exactly if its row cannot be read. -/
lemma findLimit_fails_iff (h : db.Schema) {key : QuotaKey} :
    (∃ f, db.findLimit key = .error f) ↔
      ∃ r ∈ db.quotas, r.key = key.storageKey ∧ r.Unreadable := by
  simp only [findLimit, optionMapM_eq_error_iff, quotaRow?_eq_some_iff h,
    QuotaRow.meaning_eq_error_iff]
  constructor
  · rintro ⟨f, r, ⟨hr, hk⟩, hu, -⟩
    exact ⟨r, hr, hk, hu⟩
  · rintro ⟨r, hr, hk, hu⟩
    exact ⟨_, r, ⟨hr, hk⟩, hu, rfl⟩

section Faults

variable {f : StorageFault}

lemma ofReading_of_findAll (h : db.findAll owner = .error f) : f.OfReading := by
  obtain ⟨r, -, hr⟩ := exists_of_mapM_eq_error h
  exact ScriptRow.ofReading_of_script hr

lemma ofReading_of_findScript (h : db.findScript owner name = .error f) : f.OfReading := by
  obtain ⟨r, -, hr⟩ := optionMapM_eq_error_iff.mp h
  exact ScriptRow.ofReading_of_script hr

lemma ofReading_of_findActive (h : db.findActive owner = .error f) : f.OfReading := by
  obtain ⟨r, -, hr⟩ := optionMapM_eq_error_iff.mp h
  exact ScriptRow.ofReading_of_script hr

lemma ofReading_of_findLimit {key : QuotaKey} (h : db.findLimit key = .error f) : f.OfReading := by
  obtain ⟨r, -, hr⟩ := optionMapM_eq_error_iff.mp h
  rw [(QuotaRow.meaning_eq_error_iff.mp hr).2]
  trivial

end Faults

/-- Scripts of one owner are told apart by their names. -/
instance : Keyed Script String where
  key s := s.name

/-- The rows of an owner are in the order of names. -/
lemma scriptRows_pairwise (h : db.Schema) :
    (db.scriptRows owner).Pairwise fun r s => Text.precedes r.name s.name = true := by
  refine (h.scripts_sorted.filter _).imp_of_mem fun {r s} hr hs hrs => ?_
  have ho : r.owner = s.owner := (mem_scriptRows.mp hr).2.trans (mem_scriptRows.mp hs).2.symm
  simpa [KeyOrder.precedes, ho, Text.precedes_irrefl] using hrs

/-- The names of a listing are those of the rows. -/
lemma names_of_findAll {l : List Script} (h : db.findAll owner = .ok l) :
    l.map Script.name = (db.scriptRows owner).map ScriptRow.name := by
  have hnames : List.Forall₂ (fun m n => m = n) ((db.scriptRows owner).map ScriptRow.name)
      (l.map Script.name) := by
    rw [List.forall₂_map_left_iff, List.forall₂_map_right_iff]
    exact (mapM_eq_ok_iff.mp h).imp fun r s hrs => (ScriptRow.script_eq_ok_iff.mp hrs).name.symm
  rw [List.forall₂_eq_eq_eq] at hnames
  exact hnames.symm

/-- The listing of an owner is in the order of names. -/
lemma sorted_findAll (hdb : db.Schema) {l : List Script} (h : db.findAll owner = .ok l) :
    Table.Sorted l := by
  have hsorted : ((db.scriptRows owner).map ScriptRow.name).Pairwise
      fun m n => Text.precedes m n = true :=
    List.pairwise_map.mpr (scriptRows_pairwise hdb)
  rw [← names_of_findAll h] at hsorted
  exact List.pairwise_map.mp hsorted

/-- What is listed under a name is what is found under it. -/
lemma findScript_eq_some_iff_of_findAll (hdb : db.Schema) {l : List Script}
    (h : db.findAll owner = .ok l) {s : Script} :
    db.findScript owner name = .ok (some s) ↔ s ∈ l ∧ s.name = name := by
  rw [findScript_of_findAll h, Except.ok.injEq]
  exact Table.find?_eq_some_iff (sorted_findAll hdb h)

/-- At most one listed script is active. -/
lemma length_active_le_one (hdb : db.Schema) {l : List Script} (h : db.findAll owner = .ok l) :
    (l.filter Script.active).length ≤ 1 := by
  refine Table.length_filter_le_one (sorted_findAll hdb h) fun s hs p hp hsa hpa => ?_
  -- both are the one active script
  have hactive : ∀ q ∈ l, q.active = true → db.findActive owner = .ok (some q) := fun q hq hqa =>
    findActive_of_findScript hdb ((findScript_eq_some_iff_of_findAll hdb h).mpr ⟨hq, rfl⟩) hqa
  have heq := (hactive s hs hsa).symm.trans (hactive p hp hpa)
  rw [Option.some.inj (Except.ok.inj heq)]

/-- If every name is looked up in a list in the order of names, the list is the listing. -/
lemma findAll_of_findScript (hdb : db.Schema) {l : List Script} (hl : Table.Sorted l)
    (h : ∀ name, db.findScript owner name = .ok (Table.find? name l)) : db.findAll owner = .ok l := by
  have hread : ∃ l', db.findAll owner = .ok l' := by
    cases hall : db.findAll owner with
    | ok l' => exact ⟨l', rfl⟩
    | error f =>
        obtain ⟨r, hr, hrf⟩ := exists_of_mapM_eq_error hall
        obtain ⟨hmem, ho⟩ := mem_scriptRows.mp hr
        have hfind : db.findScript owner r.name = .error f :=
          optionMapM_eq_error_iff.mpr ⟨r, (scriptRow?_eq_some_iff hdb).mpr ⟨hmem, ho, rfl⟩, hrf⟩
        rw [h] at hfind
        cases hfind
  obtain ⟨l', hl'⟩ := hread
  rw [hl']
  congr 1
  refine Table.eq_of_find?_eq (sorted_findAll hdb hl') hl fun name => ?_
  exact Except.ok.inj ((findScript_of_findAll hl').symm.trans (h name))

end Database

end FilterStore
