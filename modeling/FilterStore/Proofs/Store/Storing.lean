import FilterStore.Proofs.Store.Ownership
import FilterStore.Store.Action

/-!
What comes of storing a script.

* **Places.** A put leaves the rows before its place and those behind it alone and has the new row
  between them, where at most the row of the same key stood (`exists_put_eq_append`). The rows of an
  owner change in the same way (`exists_scriptRows_store`).
* **Reading.** A stored script whose date can be read back is found under its name, stands at its
  place among the scripts of its owner, and is the active one exactly if it is marked (`ReadBack`).
* **The outcome.** `upsertScript_outcome` tells for every script, storable or not, which of the
  three refusals comes first, and else what is left.
-/

namespace FilterStore

/-! ### Places -/

namespace Table

open KeyOrder Keyed

variable {α κ : Type} [Keyed α κ] [DecidableEq κ] [KeyOrder κ]

/-- A put leaves what is before its place and what is behind it, and between them has its row
instead of the row of the same key, if there was one. -/
lemma exists_put_eq_append {t : List α} (h : Sorted t) (row : α) :
    ∃ before behind, t = before ++ (find? (key row) t).toList ++ behind ∧
      put row t = before ++ row :: behind := by
  induction t with
  | nil => exact ⟨[], [], rfl, rfl⟩
  | cons r rest ih =>
      obtain ⟨hr, hrest⟩ := List.pairwise_cons.mp h
      by_cases hlt : precedes (key row) (key r) = true
      · -- the row comes before all others, so none of them has its key
        have hnone : find? (key row) (r :: rest) = none := by
          rw [find?_eq_none_iff]
          intro a ha hkey
          have hbefore : precedes (key row) (key a) = true := by
            rcases List.mem_cons.mp ha with rfl | ha
            · exact hlt
            · exact KeyOrder.trans hlt (hr a ha)
          rw [hkey, KeyOrder.irrefl] at hbefore
          cases hbefore
        refine ⟨[], r :: rest, ?_, ?_⟩
        · rw [hnone]
          rfl
        · rw [put, if_pos hlt]
          rfl
      · by_cases hkey : key r = key row
        · refine ⟨[], rest, ?_, ?_⟩
          · rw [find?, List.find?_cons_of_pos (by simpa using hkey)]
            rfl
          · rw [put, if_neg hlt, if_pos hkey]
            rfl
        · obtain ⟨before, behind, hsplit, hput⟩ := ih hrest
          have hfind : find? (key row) (r :: rest) = find? (key row) rest :=
            List.find?_cons_of_neg (by simpa using hkey)
          refine ⟨r :: before, behind, ?_, ?_⟩
          · rw [hfind, List.cons_append, List.cons_append, ← hsplit]
          · rw [put, if_neg hlt, if_neg hkey, hput, List.cons_append]

end Table

namespace Database

variable {db : Database} {s : Script}

/-- Among the rows of its owner a stored script stands where its row stood, if there was one, and
the rows before and behind it stay. -/
lemma exists_scriptRows_store (hdb : db.Schema) (s : Script) :
    ∃ before behind,
      db.scriptRows s.owner = before ++ (db.scriptRow? s.owner s.name).toList ++ behind ∧
        (db.store s).scriptRows s.owner = before ++ s.stored :: behind := by
  obtain ⟨before, behind, hsplit, hput⟩ :=
    Table.exists_put_eq_append hdb.scripts_sorted s.stored
  have hfind : Table.find? (Keyed.key s.stored) db.scripts = db.scriptRow? s.owner s.name := rfl
  rw [hfind] at hsplit
  have hkept : (db.scriptRow? s.owner s.name).toList.filter (fun r => r.owner = s.owner)
      = (db.scriptRow? s.owner s.name).toList := by
    rw [List.filter_eq_self]
    intro r hr
    rw [Option.mem_toList] at hr
    simpa using ((scriptRow?_eq_some_iff hdb).mp hr).2.1
  refine ⟨before.filter fun r => r.owner = s.owner, behind.filter fun r => r.owner = s.owner,
    ?_, ?_⟩
  · have hrows := congrArg (List.filter fun r => decide (r.owner = s.owner)) hsplit
    rw [List.filter_append, List.filter_append, hkept] at hrows
    exact hrows
  · rw [scriptRows, store, hput, List.filter_append, List.filter_cons_of_pos (by simp)]

/-! ### Reading -/

section Reading

variable {α β ε : Type} {f : α → Except ε β}

/-- Rows one behind the other are read as what each part is read as. -/
lemma mapM_append_eq_ok_iff {l₁ l₂ : List α} {l : List β} :
    (l₁ ++ l₂).mapM f = .ok l ↔
      ∃ a b, l₁.mapM f = .ok a ∧ l₂.mapM f = .ok b ∧ l = a ++ b := by
  rw [List.mapM_append]
  cases l₁.mapM f with
  | error e => simp [bind, Except.bind]
  | ok a =>
      cases l₂.mapM f with
      | error e => simp [bind, Except.bind]
      | ok b => simp [bind, Except.bind, pure, Except.pure, eq_comm]

/-- A row that may be missing is read as a list of at most one row is. -/
lemma mapM_toList_eq_ok_iff {o : Option α} {l : List β} :
    o.toList.mapM f = .ok l ↔ ∃ b, o.mapM f = .ok b ∧ l = b.toList := by
  cases o with
  | none => simp [pure, Except.pure, eq_comm]
  | some a => cases ha : f a <;> simp [ha, bind, Except.bind, pure, Except.pure, eq_comm]

/-- Rows of which each can be read are read. -/
lemma exists_mapM_eq_ok {l : List α} (h : ∀ a ∈ l, ∃ b, f a = .ok b) : ∃ l', l.mapM f = .ok l' := by
  cases hl : l.mapM f with
  | ok l' => exact ⟨l', rfl⟩
  | error e =>
      obtain ⟨a, ha, hfa⟩ := exists_of_mapM_eq_error hl
      obtain ⟨b, hb⟩ := h a ha
      rw [hfa] at hb
      cases hb

end Reading

/-- The rows of an owner's other scripts can be read. -/
def ReadableBeside (db : Database) (owner name : String) : Prop :=
  ∀ r ∈ db.scripts, r.owner = owner → r.name ≠ name → r.Readable

/-- The scripts of an owner, with one of them at its place: those before and behind it were read
before, and if all were read, nothing stood between them but the script that was found under its
name. -/
structure Placed (db : Database) (s : Script) (before behind : List Script) : Prop where
  /-- The scripts before it have lesser names. -/
  before_lt : ∀ p ∈ before, Text.precedes p.name s.name = true
  /-- The scripts behind it have greater names. -/
  lt_behind : ∀ p ∈ behind, Text.precedes s.name p.name = true
  /-- They are the scripts of other names. -/
  others : ((db.scriptRows s.owner).filter fun r => r.name ≠ s.name).mapM ScriptRow.script
    = .ok (before ++ behind)
  /-- The former listing is the same but for what was found under the name. -/
  former : ∀ l, db.findAll s.owner = .ok l →
    ∃ found, db.findScript s.owner s.name = .ok found ∧ l = before ++ found.toList ++ behind

/-- The rows before and behind the place of a stored script are those of the owner's other
scripts. -/
lemma exists_scriptRows_beside (hdb : db.Schema) (ht : db.Takes s) :
    ∃ before behind,
      db.scriptRows s.owner = before ++ (db.scriptRow? s.owner s.name).toList ++ behind ∧
        (db.store s).scriptRows s.owner = before ++ s.stored :: behind ∧
        ((db.scriptRows s.owner).filter fun r => r.name ≠ s.name) = before ++ behind := by
  obtain ⟨before, behind, hsplit, hstore⟩ := exists_scriptRows_store hdb s
  have hsorted : ((db.store s).scriptRows s.owner).Pairwise
      fun r q => Text.precedes r.name q.name = true := scriptRows_pairwise (hdb.store ht)
  rw [hstore, List.pairwise_append, List.pairwise_cons] at hsorted
  obtain ⟨-, ⟨hbehind, -⟩, hbefore⟩ := hsorted
  have hne : ∀ {m n : String}, Text.precedes m n = true → m ≠ n := by
    rintro m n hmn rfl
    rw [Text.precedes_irrefl] at hmn
    cases hmn
  refine ⟨before, behind, hsplit, hstore, ?_⟩
  have hbeforeKept : before.filter (fun r => r.name ≠ s.name) = before :=
    List.filter_eq_self.mpr fun r hr =>
      decide_eq_true (hne (hbefore r hr s.stored List.mem_cons_self))
  have hbehindKept : behind.filter (fun r => r.name ≠ s.name) = behind :=
    List.filter_eq_self.mpr fun r hr => decide_eq_true (hne (hbehind r hr)).symm
  have hformer : (db.scriptRow? s.owner s.name).toList.filter (fun r => r.name ≠ s.name) = [] := by
    rw [List.filter_eq_nil_iff]
    intro r hr
    rw [Option.mem_toList] at hr
    simp [((scriptRow?_eq_some_iff hdb).mp hr).2.2]
  rw [hsplit, List.filter_append, List.filter_append, hbeforeKept, hbehindKept, hformer,
    List.append_nil]

/-- A stored script is listed at its place. -/
lemma exists_findAll_store (hdb : db.Schema) (ht : db.Takes s)
    (hd : ∀ t ∈ s.activatedAt, t.Survives) (hothers : db.ReadableBeside s.owner s.name) :
    ∃ before behind, (db.store s).findAll s.owner = .ok (before ++ s :: behind) ∧
      db.Placed s before behind := by
  obtain ⟨rowsBefore, rowsBehind, hsplit, hstore, hbeside⟩ := exists_scriptRows_beside hdb ht
  have hreadable : ∀ r ∈ rowsBefore ++ rowsBehind, ∃ p, r.script = .ok p := by
    intro r hr
    rw [← hbeside, List.mem_filter, mem_scriptRows] at hr
    exact hothers r hr.1.1 hr.1.2 (of_decide_eq_true hr.2)
  obtain ⟨others, hread⟩ := exists_mapM_eq_ok hreadable
  obtain ⟨before, behind, hbefore, hbehind, rfl⟩ := mapM_append_eq_ok_iff.mp hread
  have hself : (s.stored :: rowsBehind).mapM ScriptRow.script = .ok (s :: behind) := by
    rw [mapM_eq_ok_iff]
    exact .cons (ScriptRow.script_stored ht.storable ht.coherent hd) (mapM_eq_ok_iff.mp hbehind)
  have hall : (db.store s).findAll s.owner = .ok (before ++ s :: behind) := by
    rw [findAll, hstore]
    exact mapM_append_eq_ok_iff.mpr ⟨_, _, hbefore, hself, rfl⟩
  have hsorted : (before ++ s :: behind).Pairwise fun p q => Text.precedes p.name q.name = true :=
    sorted_findAll (hdb.store ht) hall
  rw [List.pairwise_append, List.pairwise_cons] at hsorted
  refine ⟨before, behind, hall, fun p hp => hsorted.2.2 p hp s List.mem_cons_self,
    hsorted.2.1.1, hbeside ▸ hread, fun l hl => ?_⟩
  rw [findAll, hsplit] at hl
  obtain ⟨first, last, hfirst, hlast, rfl⟩ := mapM_append_eq_ok_iff.mp hl
  obtain ⟨before', former, hbefore', hformer, rfl⟩ := mapM_append_eq_ok_iff.mp hfirst
  obtain ⟨found, hfound, rfl⟩ := mapM_toList_eq_ok_iff.mp hformer
  obtain rfl := Except.ok.inj (hbefore'.symm.trans hbefore)
  obtain rfl := Except.ok.inj (hlast.symm.trans hbehind)
  exact ⟨found, hfound, rfl⟩

/-! ### The outcome -/

/-- The queries find a script that was stored. -/
structure ReadBack (db : Database) (s : Script) (after : Database) : Prop where
  /-- It is found under its name with all that it was. -/
  found : after.findScript s.owner s.name = .ok (some s)
  /-- If the owner's other scripts can be read, it is listed at its place among them. -/
  listed : db.ReadableBeside s.owner s.name →
    ∃ before behind, after.findAll s.owner = .ok (before ++ s :: behind) ∧ db.Placed s before behind
  /-- It is the active one exactly if it is marked. -/
  active : after.findActive s.owner = .ok (some s) ↔ s.active = true

/-- What is left when a script was stored. -/
structure Stored (db : Database) (s : Script) (after : Database) : Prop where
  /-- There is one row of this owner and name, and it is that of the script. -/
  row : after.scripts.filter (fun r => r.owner = s.owner ∧ r.name = s.name) = [s.stored]
  /-- All other rows are the same. -/
  others : SameBut (fun o n => o = s.owner ∧ n = s.name) db after
  /-- The queries find the script if its date is of the years 0 to 9999, or if it has none. -/
  readBack : (∀ t ∈ s.activatedAt, t.HasPlainYear) → db.ReadBack s after

/-- The row of a stored script is the only one of its owner and name. -/
lemma filter_store (hdb : db.Schema) (ht : db.Takes s) :
    (db.store s).scripts.filter (fun r => r.owner = s.owner ∧ r.name = s.name) = [s.stored] := by
  have hone :
      ((db.store s).scripts.filter fun r => r.owner = s.owner ∧ r.name = s.name).length ≤ 1 := by
    refine Table.length_filter_le_one (hdb.store ht).scripts_sorted fun r _ q _ hr hq => ?_
    obtain ⟨hro, hrn⟩ := of_decide_eq_true hr
    obtain ⟨hqo, hqn⟩ := of_decide_eq_true hq
    rw [ScriptRow.key_eq, ScriptRow.key_eq, hro, hrn, hqo, hqn]
  have hmem : s.stored ∈
      (db.store s).scripts.filter fun r => r.owner = s.owner ∧ r.name = s.name :=
    List.mem_filter.mpr ⟨(mem_store hdb).mpr (.inl rfl), by simp⟩
  obtain ⟨row, hrow⟩ := List.length_eq_one_iff.mp (hone.antisymm (List.length_pos_of_mem hmem))
  rw [hrow, List.mem_singleton] at hmem
  rw [hrow, hmem]

/-- The queries find a stored script whose date can be read back. -/
lemma readBack_store (hdb : db.Schema) (ht : db.Takes s) (hd : ∀ t ∈ s.activatedAt, t.Survives) :
    db.ReadBack s (db.store s) := by
  have hafter := hdb.store ht
  have hfound : (db.store s).findScript s.owner s.name = .ok (some s) := by
    rw [findScript_store hdb ht.storable ht.coherent hd, if_pos ⟨rfl, rfl⟩]
  exact ⟨hfound, exists_findAll_store hdb ht hd, active_of_findActive hafter,
    findActive_of_findScript hafter hfound⟩

/-- A script that is taken is stored, and the rest stays. -/
lemma stored_store (hdb : db.Schema) (ht : db.Takes s) : db.Stored s (db.store s) where
  row := filter_store hdb ht
  others := (SameBut.refl db).store hdb ⟨rfl, rfl⟩
  readBack hplain := readBack_store hdb ht fun t ht => (hplain t ht).survives

/-- **The outcome of storing a script.** A script is refused for its size if that is `2^63` or more,
else because mark and date disagree, else because it is marked and another script of its owner is;
a refusal leaves the database as it was. Any other script is stored: there is one row of its owner
and name, all other rows are the same, and unless the date is of a year that has no stored form that
can be read, the queries find it, list it at its place and show it as the active one exactly if it
is marked. -/
theorem upsertScript_outcome (hdb : db.Schema) (s : Script) :
    let rivalled := ∃ r ∈ db.scripts, r.owner = s.owner ∧ r.name ≠ s.name ∧ r.active = 1
    (2 ^ 63 ≤ s.size.toNat →
      Action.upsertScript s db = .error (.scriptTooLarge s.name) db) ∧
    (s.size.toNat < 2 ^ 63 → s.active ≠ s.activatedAt.isSome →
      Action.upsertScript s db = .error (.storage .dateWithoutMark) db) ∧
    (s.size.toNat < 2 ^ 63 → s.active = s.activatedAt.isSome → s.active = true ∧ rivalled →
      Action.upsertScript s db = .error (.storage .secondActive) db) ∧
    (s.size.toNat < 2 ^ 63 → s.active = s.activatedAt.isSome → ¬ (s.active = true ∧ rivalled) →
      ∃ after, Action.upsertScript s db = .ok () after ∧ db.Stored s after) := by
  intro rivalled
  have hrivalled : db.otherMarked s.owner s.name = true ↔ rivalled := by
    simp only [otherMarked, List.any_eq_true, decide_eq_true_iff, rivalled]
    exact exists_congr fun r =>
      and_congr_right fun _ => and_congr_right fun _ => and_comm
  have hrun := upsertScript_eq s db
  rw [Action.upsertScript, Action.change]
  refine ⟨fun hsize => ?_, fun hsize hdate => ?_, fun hsize hdate hrival => ?_,
    fun hsize hdate hrival => ?_⟩
  · have hlarge : ¬ s.Storable := Nat.not_lt.mpr hsize
    rw [hrun, if_pos hlarge]
  · have hstorable : s.Storable := hsize
    have hincoherent : ¬ s.Coherent := hdate
    rw [hrun, if_neg (not_not.mpr hstorable), if_pos hincoherent]
  · have hstorable : s.Storable := hsize
    have hcoherent : s.Coherent := hdate
    rw [hrun, if_neg (not_not.mpr hstorable), if_neg (not_not.mpr hcoherent),
      if_pos ⟨hrival.1, hrivalled.mpr hrival.2⟩]
  · have ht : db.Takes s := by
      refine ⟨hsize, hdate, fun hactive => ?_⟩
      rw [← otherMarked_eq_false_iff, Bool.eq_false_iff]
      exact fun hother => hrival ⟨hactive, hrivalled.mp hother⟩
    rw [upsertScript_of_takes ht]
    exact ⟨_, rfl, stored_store hdb ht⟩

/-- An active script that cannot be read is replaced by an inactive one, beside a marked script of
another owner and one with an odd mark, and stands between the two scripts that it stood between. -/
theorem upsertScript_outcome_replaced :
    let row (owner name : String) (size active : Int64) (date : Option String) : ScriptRow :=
      ⟨owner, name, "keep;", size, active, date⟩
    let db : Database :=
      ⟨[row "ann" "a" 5 0 none, row "ann" "b" (-1) 1 (some "now"), row "ann" "c" 5 2 none,
        row "bob" "b" 5 1 (some "2024-05-01T10:00:00Z")], []⟩
    let s : Script := ⟨"ann", "b", "stop;", 9223372036854775807, false, none⟩
    ∃ after, Action.upsertScript s db = .ok () after ∧ db.Stored s after ∧
      after.findAll "ann" = .ok [⟨"ann", "a", "keep;", 5, false, none⟩, s,
        ⟨"ann", "c", "keep;", 5, false, none⟩] := by
  intro row db s
  have hdb : db.Schema := by decide +kernel
  have hstored := (upsertScript_outcome hdb s).2.2.2 (by decide) rfl (fun h => nomatch h.1)
  obtain ⟨after, hrun, hafter⟩ := hstored
  refine ⟨after, hrun, hafter, ?_⟩
  have hwrite : db.upsertScript s = .ok (db.store s) := by decide +kernel
  rw [Action.upsertScript, Action.change, hwrite] at hrun
  obtain ⟨-, rfl⟩ := EStateM.Result.ok.inj hrun
  decide +kernel

end Database

end FilterStore
