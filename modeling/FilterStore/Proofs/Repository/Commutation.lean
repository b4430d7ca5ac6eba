import FilterStore.Proofs.Repository.Isolation
import FilterStore.Proofs.Repository.History

/-!
Operations that can be done in either order.

* **Independence.** `Operation.Independent` lists pairs of operations that do not notice each other:
  operations called with different owners, and switching the active script of an owner over beside
  storing a script of the owner, asking for space and everything about quotas. A script that is to
  be switched on has to be there already.
* **Different owners.** The rows that an operation changes are not among those that the other one
  consults, so each finds what it would find without the other (`commutes_of_owners`).
* **The pair.** On the machine, switching over sets the pair of the owner and nothing else, and the
  other operation neither looks at the pair nor touches it (`act_withPair`).
* **The database.** Sound databases that hold the same are equal (`Represents.eq_of_sound`), which
  takes what is shown on the machine over to the repository (`commutes_of_overlooks`).
-/

namespace FilterStore

/-! ### Rows of sound databases -/

/-- A sound row is the row of the script that it shows. -/
lemma ScriptRow.Sound.eq_stored {r : ScriptRow} {s : Script} (h : r.Sound) (hs : r.Shows s) :
    r = s.stored := by
  have hdate : r.activatedAt = s.activatedAt.map Timestamp.write := by
    have hread := hs.date
    rw [readDate] at hread
    cases htext : r.activatedAt with
    | none =>
        rw [htext] at hread
        rw [← Except.ok.inj hread]
        rfl
    | some text =>
        obtain ⟨t, ht, hwrite⟩ := h.date text htext
        simp only [htext, ht, Except.ok.injEq] at hread
        rw [← hread, Option.map_some, hwrite]
  have hactive : r.active = if s.active then 1 else 0 := by
    have hmark : r.active = 1 ↔ s.active = true := hs.marked_iff h.marked
    rcases h.mark with hzero | hone
    · rw [hzero] at hmark ⊢
      rw [if_neg fun ha => absurd (hmark.mpr ha) (by decide)]
    · rw [hone, if_pos (hmark.mp hone)]
  cases r
  simp only [Script.stored, ScriptRow.mk.injEq]
  exact ⟨hs.owner.symm, hs.name.symm, hs.content.symm, hs.size, hactive, hdate⟩

/-- A quota row is the row of the limit that it reads as. -/
lemma QuotaRow.eq_stored {r : QuotaRow} {key : QuotaKey} {limit : Limit}
    (hkey : r.key = key.storageKey) (h : r.meaning = .ok limit) : r = limit.stored key := by
  obtain ⟨text, stored⟩ := r
  obtain rfl : text = key.storageKey := hkey
  cases stored with
  | none =>
      obtain rfl := Except.ok.inj h
      rfl
  | some i =>
      cases hcol : ofColumn? i with
      | none => simp [meaning, hcol] at h
      | some count =>
          simp only [meaning, hcol, Except.ok.injEq] at h
          rw [← h, (ofColumn?_eq_some_iff.mp hcol).2]
          rfl

namespace Represents

variable {db₁ db₂ : Database} {m : Machine}

/-- Sound databases that hold the same are equal. -/
theorem eq_of_sound (h₁ : Represents db₁ m) (h₂ : Represents db₂ m) (hs₁ : db₁.Sound)
    (hs₂ : db₂.Sound) : db₁ = db₂ := by
  have hscripts : db₁.scripts = db₂.scripts := by
    refine Table.eq_of_find?_eq h₁.schema.scripts_sorted h₂.schema.scripts_sorted fun k => ?_
    -- a row that is there is the row of the script that is found
    have hrow : ∀ {db : Database}, Represents db m → db.Sound →
        Table.find? k db.scripts =
          ((m.shelf k.owner).script? k.owner k.name).map Script.stored := by
      intro db h hs
      have hfind := h.script k.owner k.name
      cases hfound : (m.shelf k.owner).script? k.owner k.name with
      | none =>
          rw [hfound] at hfind
          exact optionMapM_eq_none_iff.mp hfind
      | some s =>
          rw [hfound] at hfind
          obtain ⟨r, hr, hread⟩ := optionMapM_eq_some_iff.mp hfind
          have hmem := ((Database.scriptRow?_eq_some_iff h.schema).mp hr).1
          have hstored := (hs.scripts r hmem).eq_stored (ScriptRow.script_eq_ok_iff.mp hread)
          exact hr.trans (congrArg some hstored)
    rw [hrow h₁ hs₁, hrow h₂ hs₂]
  have hquotas : db₁.quotas = db₂.quotas := by
    refine Table.eq_of_find?_eq h₁.schema.quotas_sorted h₂.schema.quotas_sorted fun k => ?_
    obtain ⟨key, hkey, rfl⟩ : ∃ key : QuotaKey, key ≠ .owner "" ∧ key.storageKey = k := by
      by_cases hk : k = ""
      · exact ⟨.default, nofun, hk.symm⟩
      · exact ⟨.owner k, fun heq => hk (QuotaKey.owner.inj heq), rfl⟩
    have hrow : ∀ {db : Database}, Represents db m →
        Table.find? key.storageKey db.quotas = (m.limit key).map fun limit => limit.stored key := by
      intro db h
      have hfind := h.limit key hkey
      cases hfound : m.limit key with
      | none =>
          rw [hfound] at hfind
          exact optionMapM_eq_none_iff.mp hfind
      | some limit =>
          rw [hfound] at hfind
          obtain ⟨r, hr, hread⟩ := optionMapM_eq_some_iff.mp hfind
          have hmem := (Database.quotaRow?_eq_some_iff h.schema).mp hr
          exact hr.trans (congrArg some (QuotaRow.eq_stored hmem.2 hread))
    rw [hrow h₁, hrow h₂]
  cases db₁
  cases db₂
  simp only [Database.mk.injEq]
  exact ⟨hscripts, hquotas⟩

end Represents

/-- Databases that agree beside one owner and beside another one are equal. -/
lemma Database.eq_of_sameBeside {db₁ db₂ : Database} {a b : String} (hne : a ≠ b)
    (h₁ : db₁.Schema) (h₂ : db₂.Schema) (ha : db₁.SameBeside a db₂) (hb : db₁.SameBeside b db₂) :
    db₁ = db₂ := by
  have hscripts : db₁.scripts = db₂.scripts := by
    refine Table.eq_of_mem_iff h₁.scripts_sorted h₂.scripts_sorted fun r => ?_
    by_cases hr : r.owner = a
    · exact hb.scripts r (hr ▸ hne)
    · exact ha.scripts r hr
  have hquotas : db₁.quotas = db₂.quotas := by
    refine Table.eq_of_mem_iff h₁.quotas_sorted h₂.quotas_sorted fun r => ?_
    by_cases hr : r.key = a
    · exact hb.quotas r (.inl (hr ▸ hne))
    · exact ha.quotas r (.inl hr)
  cases db₁
  cases db₂
  simp only [Database.mk.injEq]
  exact ⟨hscripts, hquotas⟩

/-! ### Independence -/

namespace Operation

/-- The operation is about quota entries. -/
def OnQuotas : Operation → Prop
  | .hasDefaultQuota | .getDefaultQuota | .setDefaultQuota _ | .removeDefaultQuota | .hasQuota _
  | .getQuota _ | .setQuota _ _ | .removeQuota _ => True
  | _ => False

/-- The operation has nothing to do with which script of the owner is active: it stores a script of
the owner, asks for space or is about quotas. -/
def Overlooks (owner : String) : Operation → Prop
  | .put o _ _ | .haveSpace o _ _ => o = owner
  | op => op.OnQuotas

/-- The operations do not notice each other in the database. -/
inductive Independent (db : Database) : Operation → Operation → Prop where
  /-- They are called with different owners. -/
  | owners {x y : Operation} {a b : String} (first : x.owner? = some a) (second : y.owner? = some b)
      (different : a ≠ b) : Independent db x y
  /-- One switches to a script that is there, or switches off, and the other one has nothing to do
  with which script is active. -/
  | active {owner name : String} {y : Operation} (held : name = "" ∨ db.HasScript owner name)
      (overlooks : y.Overlooks owner) : Independent db (.setActive owner name) y

/-- Each operation answers the same before and after the other one, and both orders lead to the same
database. -/
structure Commutes (tx : Instant) (x : Operation) (ty : Instant) (y : Operation) (db : Database) :
    Prop where
  /-- The answer to the first one. -/
  first : (x.run tx db).result = (x.run tx (y.run ty db).database).result
  /-- The answer to the second one. -/
  second : (y.run ty (x.run tx db).database).result = (y.run ty db).result
  /-- The database in the end. -/
  database : (y.run ty (x.run tx db).database).database = (x.run tx (y.run ty db).database).database

variable {tx ty : Instant} {x y : Operation} {db : Database}

lemma Commutes.symm (h : Commutes tx x ty y db) : Commutes ty y tx x db :=
  ⟨h.second.symm, h.first.symm, h.database.symm⟩

/-- An operation that fails its name checks can be done at any time. -/
lemma commutes_of_checks_error {e : Failure} (h : x.checks = .error e) : Commutes tx x ty y db := by
  refine ⟨?_, ?_, ?_⟩ <;> simp only [run_of_checks_error h]

/-! ### Different owners -/

section Owners

variable {a b : String}

/-- After an operation of another owner an operation answers what it would have answered before, and
leaves what the other one leaves after it, beside the rows of the other owner. -/
lemma run_after_other (tx ty : Instant) (hdb : db.Schema) (hx : x.owner? = some a)
    (hy : y.owner? = some b) (hne : a ≠ b) :
    (y.run ty (x.run tx db).database).result = (y.run ty db).result ∧
      (y.run ty (x.run tx db).database).database.SameBeside a
        (x.run tx (y.run ty db).database).database := by
  have hown : Request.OfOwner a (.operation x) := hx
  have hbeside : ∀ {db : Database}, db.Schema → db.SameBeside a (x.run tx db).database :=
    Request.sameBeside_run hown tx
  have hrows := (hbeside hdb).symm
  have howner : y.subject ≠ a := by
    rw [y.subject_of_owner hy]
    exact hne.symm
  obtain ⟨hresult, -, hafter⟩ :=
    y.same_run ty (x.schema_run tx hdb) hdb howner (.inl howner) (.inr rfl) hrows
  exact ⟨hresult, hafter.trans (hbeside (y.schema_run ty hdb))⟩

/-- Operations of different owners commute, whatever rows there are. -/
theorem commutes_of_owners (hdb : db.Schema) (hx : x.owner? = some a) (hy : y.owner? = some b)
    (hne : a ≠ b) : Commutes tx x ty y db := by
  obtain ⟨hsecond, hbesideA⟩ := run_after_other tx ty hdb hx hy hne
  obtain ⟨hfirst, hbesideB⟩ := run_after_other ty tx hdb hy hx hne.symm
  exact ⟨hfirst.symm, hsecond, Database.eq_of_sameBeside hne
    (y.schema_run ty (x.schema_run tx hdb)) (x.schema_run tx (y.schema_run ty hdb)) hbesideA
    hbesideB.symm⟩

end Owners

end Operation

/-! ### The pair -/

namespace Machine

/-- Where something else than limits is changed, a limit is told as before. -/
lemma getLimit_of_limit {m : Machine} {f : Machine → Machine} (h : (f m).limit = m.limit)
    (key : QuotaKey) :
    (f m).getLimit key = (m.getLimit key).map fun done => (done.1, f done.2) := by
  rw [getLimit, getLimit, h]
  cases m.limit key <;> rfl

/-- Where something else than limits is changed, a limit is set as before. -/
lemma setLimit_of_withLimit {m : Machine} {f : Machine → Machine}
    (h : ∀ key limit, (f m).withLimit key limit = f (m.withLimit key limit)) (key : QuotaKey)
    (limit : Limit) :
    (f m).setLimit key limit = (m.setLimit key limit).map fun done => (done.1, f done.2) := by
  cases limit with
  | unlimited => simp only [setLimit, h, Except.map]
  | bytes count =>
      simp only [setLimit, h]
      split_ifs <;> rfl

variable (m : Machine) {owner : String}

/-- The machine with another pair of an owner. -/
def withPair (owner : String) (pair : Option (String × Instant)) : Machine :=
  m.withShelf owner { m.shelf owner with active := pair }

/-- What is stored on the owner's shelf stays when the pair is set afterwards. -/
lemma withPair_withShelf (owner name content : String) (pair : Option (String × Instant)) :
    (m.withPair owner pair).withShelf owner
        (((m.withPair owner pair).shelf owner).put name content) =
      (m.withShelf owner ((m.shelf owner).put name content)).withPair owner pair := by
  simp only [withPair, withShelf_self, withShelf_withShelf]
  rfl

/-- The space check does not look at the pair. -/
lemma checkSpace_withPair (pair : Option (String × Instant)) (name : String) (bytes : ℕ) :
    (m.withPair owner pair).checkSpace owner name bytes = m.checkSpace owner name bytes := by
  have hused : ((m.withPair owner pair).shelf owner).usedBeside name
      = (m.shelf owner).usedBeside name := by
    rw [withPair, withShelf_self]
    rfl
  rw [checkSpace, checkSpace, hused]
  rfl

/-- An operation that overlooks the pair does the same whatever the pair is, and leaves it. -/
theorem act_withPair {op : Operation} (h : op.Overlooks owner) (now : Instant)
    (pair : Option (String × Instant)) :
    (m.withPair owner pair).act now op =
      (m.act now op).map fun done => (done.1, done.2.withPair owner pair) := by
  have hget := getLimit_of_limit (m := m) (f := fun m => m.withPair owner pair) rfl
  have hset := setLimit_of_withLimit (m := m) (f := fun m => m.withPair owner pair) fun _ _ => rfl
  cases op with
  | put o name content =>
      obtain rfl : o = owner := h
      rw [act, act, checkSpace_withPair]
      cases m.checkSpace o name content.utf8ByteSize with
      | error e => rfl
      | ok u =>
          simp only [bind, Except.bind, withPair_withShelf]
          rfl
  | haveSpace o name size =>
      obtain rfl : o = owner := h
      rw [act, act, checkSpace_withPair]
      cases m.checkSpace o name size.toNat with
      | error e => rfl
      | ok u => rfl
  | getDefaultQuota => exact hget .default
  | getQuota o => exact hget (.owner o)
  | setDefaultQuota limit => exact hset .default limit
  | setQuota o limit => exact hset (.owner o) limit
  | hasDefaultQuota => rfl
  | hasQuota o => rfl
  | removeDefaultQuota => rfl
  | removeQuota o => rfl
  | _ => exact h.elim

/-- An operation that overlooks the pair takes no script away. -/
lemma mem_of_act {m : Machine} {op : Operation} (h : op.Overlooks owner) {now : Instant}
    {answer : Answer} {after : Machine} (hact : m.act now op = .ok (answer, after)) {name : String}
    (hname : name ∈ (m.shelf owner).contents) : name ∈ (after.shelf owner).contents := by
  cases goes_of_act hact with
  | put o other content =>
      obtain rfl : o = owner := h
      rw [withShelf_self, Shelf.put, Finmap.mem_insert]
      exact .inr hname
  | keep keeps same =>
      rw [same]
      exact hname
  | switchOff o => exact h.elim
  | activate named => exact h.elim
  | delete inactive => exact h.elim
  | rename target held => exact h.elim

/-- The pair that switching over to a name sets: the empty name stands for none. -/
def chosen (now : Instant) (name : String) : Option (String × Instant) :=
  if name = "" then none else some (name, now)

/-- Switching over to a script that is there, or switching off, sets the pair and nothing else. -/
lemma act_setActive {m : Machine} {name : String}
    (held : name = "" ∨ name ∈ (m.shelf owner).contents) (now : Instant) :
    m.act now (.setActive owner name) = .ok (.done, m.withPair owner (chosen now name)) := by
  rw [act, chosen]
  split_ifs with hname
  · rfl
  · obtain ⟨content, hcontent⟩ := Finmap.mem_iff.mp (held.resolve_left hname)
    rw [hcontent]
    rfl

end Machine

/-- A script is in the database exactly if it is on its owner's shelf. -/
lemma Represents.hasScript_iff {db : Database} {m : Machine} (h : Represents db m)
    {owner name : String} : db.HasScript owner name ↔ name ∈ (m.shelf owner).contents := by
  rw [← Database.isSome_iff_hasScript h.schema (h.script owner name), Shelf.script?,
    Option.isSome_map, Finmap.lookup_isSome]

namespace Operation

variable {tx ty : Instant} {x y : Operation} {db : Database} {m : Machine} {owner name : String}

/-- Switching over and an operation that has nothing to do with it commute. -/
theorem commutes_of_overlooks (h : Represents db m) (hdb : db.Sound)
    (held : name = "" ∨ db.HasScript owner name) (hover : y.Overlooks owner)
    (htx : tx.HasPlainYear) (hty : ty.HasPlainYear) (hfit : y.Fits) :
    Commutes tx (.setActive owner name) ty y db := by
  cases hcx : (Operation.setActive owner name).checks with
  | error e => exact commutes_of_checks_error hcx
  | ok u =>
      cases hcy : y.checks with
      | error e => exact (commutes_of_checks_error hcy).symm
      | ok v =>
          have hfitx : (Operation.setActive owner name).Fits := trivial
          rw [h.hasScript_iff] at held
          have hx := refines_act h htx hfitx hcx
          rw [Machine.act_setActive held] at hx
          obtain ⟨hxresult, hxrep⟩ := hx
          have hyafter := refines_act hxrep hty hfit hcy
          have hy := refines_act h hty hfit hcy
          -- both orders lead to sound databases that hold the same
          have hsound : ∀ {m' : Machine},
              Represents (y.run ty ((setActive owner name).run tx db).database).database m' →
              Represents ((setActive owner name).run tx (y.run ty db).database).database m' →
              (y.run ty ((setActive owner name).run tx db).database).database =
                ((setActive owner name).run tx (y.run ty db).database).database := fun h₁ h₂ =>
            h₁.eq_of_sound h₂ (sound_run (sound_run hdb hfitx htx) hfit hty)
              (sound_run (sound_run hdb hfit hty) hfitx htx)
          rw [Machine.act_withPair m hover] at hyafter
          cases hact : m.act ty y with
          | error e =>
              rw [hact] at hy hyafter
              have hlast := refines_act hy.2 htx hfitx hcx
              rw [Machine.act_setActive held] at hlast
              exact ⟨hxresult.trans hlast.1.symm, hyafter.1.trans hy.1.symm,
                hsound hyafter.2 hlast.2⟩
          | ok done =>
              obtain ⟨answer, after⟩ := done
              rw [hact] at hy hyafter
              have hlast := refines_act hy.2 htx hfitx hcx
              rw [Machine.act_setActive (held.imp_right fun hn => Machine.mem_of_act hover hact hn)]
                at hlast
              exact ⟨hxresult.trans hlast.1.symm, hyafter.1.trans hy.1.symm,
                hsound hyafter.2 hlast.2⟩

/-- Independent operations commute in the databases that the library leaves. -/
theorem Independent.commutes (hind : Independent db x y) (h : Represents db m) (hdb : db.Sound)
    (htx : tx.HasPlainYear) (hty : ty.HasPlainYear) (hfit : y.Fits) : Commutes tx x ty y db := by
  cases hind with
  | owners first second different => exact commutes_of_owners hdb.schema first second different
  | active held overlooks => exact commutes_of_overlooks h hdb held overlooks htx hty hfit

end Operation

end FilterStore
