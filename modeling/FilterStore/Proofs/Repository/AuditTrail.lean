import FilterStore.Proofs.Repository.Refinement

/-!
The log as an audit trail.

* **Texts.** The texts of keys and limits in the log tell them apart (`QuotaKey.text_injective`,
  `Limit.text_injective`).
* **The trail.** A `LogEntry` is an event as it stands in a log, and an `Audit` is what somebody
  knows who reads nothing else: size and mark of each script, and the text of each limit.
  `Audit.note` takes one entry into account, and `Audit.replay` the informative entries of a log.
* **The tables.** `Database.noted` and `Database.notedLimit` are the same view of the tables, and
  `Database.Traced` says that an audit knows exactly this.
* **Steps.** Whatever an operation writes it reports, and what it reports it wrote
  (`Writes.traced`), so the log of a session tells what the session leaves (`traced_runSession`).
-/

namespace FilterStore

/-! ### Texts -/

/-- The text of a key tells which key it is. -/
theorem QuotaKey.text_injective : Function.Injective QuotaKey.text := by
  have hapart : ∀ name, "default quota" ≠ "quota for " ++ name := by
    intro name h
    have hhead := congrArg (fun s : String => s.toList.head?) h
    simp only [String.toList_append] at hhead
    cases hhead
  intro k l h
  cases k with
  | default =>
      cases l with
      | default => rfl
      | owner name => exact absurd h (hapart name)
  | owner name =>
      cases l with
      | default => exact absurd h.symm (hapart name)
      | owner other =>
          have hlist := congrArg String.toList h
          simp only [text, String.toList_append] at hlist
          rw [String.toList_injective (List.append_cancel_left hlist)]

/-- The text of a limit tells which limit it is. -/
theorem Limit.text_injective : Function.Injective Limit.text := by
  have hvalue : ∀ count : UInt64, Numeral.value (Limit.bytes count).text.toList = count.toNat := by
    intro count
    rw [text, Numeral.toString_eq_decimal, String.toList_ofList, Numeral.value_decimal]
  have hapart : ∀ count : UInt64, "unlimited" ≠ (Limit.bytes count).text := by
    intro count h
    have hmem : 'u' ∈ (Limit.bytes count).text.toList := by
      rw [← h]
      decide
    rw [text, Numeral.toString_eq_decimal, String.toList_ofList] at hmem
    exact absurd (Numeral.isDigit_of_mem_decimal hmem) (by decide)
  intro k l h
  cases k with
  | unlimited =>
      cases l with
      | unlimited => rfl
      | bytes count => exact absurd h (hapart count)
  | bytes count =>
      cases l with
      | unlimited => exact absurd h.symm (hapart count)
      | bytes other =>
          have hcount : count.toNat = other.toNat := by
            rw [← hvalue, h, hvalue]
          rw [UInt64.toNat_inj.mp hcount]

/-! ### The trail -/

/-- An event as it stands in a log. -/
structure LogEntry where
  /-- How much it matters. -/
  level : Level
  /-- What happened, in a few words. -/
  message : String
  /-- The particulars, by name. -/
  fields : List (String × FieldValue)

/-- The event as it stands in a log. -/
def Event.logged (event : Event) : LogEntry :=
  ⟨event.level, event.message, event.fields⟩

namespace LogEntry

/-- A particular that is a text. -/
def text (entry : LogEntry) (name : String) : String :=
  match entry.fields.lookup name with
  | some (.text s) => s
  | _ => ""

/-- A particular that is a number. -/
def number (entry : LogEntry) (name : String) : UInt64 :=
  match entry.fields.lookup name with
  | some (.number n) => n
  | _ => 0

end LogEntry

/-- What is noted of a script. -/
structure Noted where
  /-- Its size. -/
  size : UInt64
  /-- Whether it is the active one. -/
  active : Bool
  deriving DecidableEq

/-- What somebody knows who reads the log. -/
structure Audit where
  /-- The scripts, by owner and name. -/
  script : String → String → Option Noted
  /-- The texts of the limits, by the texts of their keys. -/
  limit : String → Option String

namespace Audit

/-- Nothing is known. -/
def blank : Audit :=
  ⟨fun _ _ => none, fun _ => none⟩

variable (audit : Audit)

/-- A script has this size, and keeps its mark if it was there. -/
def store (owner name : String) (size : UInt64) : Audit :=
  { audit with
    script := fun o n =>
      if owner = o ∧ name = n then
        some ⟨size, ((audit.script owner name).map Noted.active).getD false⟩
      else audit.script o n }

/-- A script is the only active one of its owner. -/
def activate (owner name : String) : Audit :=
  { audit with
    script := fun o n =>
      if owner = o then (audit.script o n).map fun noted => { noted with active := name = n }
      else audit.script o n }

/-- A script is no longer active. -/
def deactivate (owner name : String) : Audit :=
  { audit with
    script := fun o n =>
      if owner = o ∧ name = n then
        (audit.script o n).map fun noted => { noted with active := false }
      else audit.script o n }

/-- A script is gone. -/
def delete (owner name : String) : Audit :=
  { audit with
    script := fun o n => if owner = o ∧ name = n then none else audit.script o n }

/-- A script goes by another name and keeps its mark. -/
def rename (owner source target : String) : Audit :=
  { audit with
    script := fun o n =>
      if owner = o ∧ target = n then audit.script owner source
      else if owner = o ∧ source = n then none
      else audit.script o n }

/-- An entry has this limit. -/
def setLimit (key limit : String) : Audit :=
  { audit with limit := Function.update audit.limit key (some limit) }

/-- An entry is gone. -/
def removeLimit (key : String) : Audit :=
  { audit with limit := Function.update audit.limit key none }

/-- Takes an entry of the log into account. -/
def note (entry : LogEntry) : Audit :=
  let owner := entry.text "owner"
  let script := entry.text "script"
  if entry.message = "stored script" then audit.store owner script (entry.number "size")
  else if entry.message = "activated script" then audit.activate owner script
  else if entry.message = "deactivated script" then audit.deactivate owner script
  else if entry.message = "deleted script" then audit.delete owner script
  else if entry.message = "renamed script" then
    audit.rename owner (entry.text "from") (entry.text "to")
  else if entry.message = "set quota" then
    audit.setLimit (entry.text "key") (entry.text "limit")
  else if entry.message = "removed quota" then audit.removeLimit (entry.text "key")
  else audit

/-- Takes the informative entries of a log into account, one after another. -/
def replay (log : List LogEntry) : Audit :=
  (log.filter fun entry => entry.level = .info).foldl note audit

lemma replay_append (log later : List LogEntry) :
    audit.replay (log ++ later) = (audit.replay log).replay later := by
  rw [replay, List.filter_append, List.foldl_append]
  rfl

lemma replay_singleton {entry : LogEntry} (h : entry.level = .info) :
    audit.replay [entry] = audit.note entry := by
  rw [replay, List.filter_cons_of_pos (by simpa using h)]
  rfl

/-- A failure is no information. -/
lemma replay_failed (operation owner : String) (failure : Failure) :
    audit.replay [(Event.failed operation owner failure).logged] = audit := by
  have hlevel : (Event.failed operation owner failure).logged.level ≠ .info := by
    simp only [Event.logged, Event.level]
    split_ifs <;> exact nofun
  rw [replay, List.filter_cons_of_neg (by simpa using hlevel)]
  rfl

/-! What each event tells. -/

lemma note_stored (owner name : String) (size : UInt64) :
    audit.note (Event.stored owner name size).logged = audit.store owner name size := rfl

lemma note_activated (owner name : String) :
    audit.note (Event.activated owner name).logged = audit.activate owner name := rfl

lemma note_deactivated (owner name : String) :
    audit.note (Event.deactivated owner name).logged = audit.deactivate owner name := rfl

lemma note_deleted (owner name : String) :
    audit.note (Event.deleted owner name).logged = audit.delete owner name := rfl

lemma note_renamed (owner source target : String) :
    audit.note (Event.renamed owner source target).logged = audit.rename owner source target := rfl

lemma note_quotaSet (key : QuotaKey) (limit : Limit) :
    audit.note (Event.quotaSet key limit).logged = audit.setLimit key.text limit.text := rfl

lemma note_quotaRemoved (key : QuotaKey) :
    audit.note (Event.quotaRemoved key).logged = audit.removeLimit key.text := rfl

lemma note_opened (path : String) : audit.note (Event.opened path).logged = audit := rfl

end Audit

/-! ### The tables -/

/-- What is to be noted of the row of a script. -/
def ScriptRow.noted (r : ScriptRow) : Noted :=
  ⟨r.size.toUInt64, r.Marked⟩

/-- The text of the limit in a row. -/
def QuotaRow.limitText (r : QuotaRow) : String :=
  (Limit.ofBytes? (r.limit.map Int64.toUInt64)).text

lemma Script.stored_noted (s : Script) : s.stored.noted = ⟨s.size, s.active⟩ := by
  simp only [ScriptRow.noted, stored_marked, Bool.decide_eq_true]
  rw [stored, UInt64.toUInt64_toInt64]

lemma Limit.stored_limitText (limit : Limit) (key : QuotaKey) :
    (limit.stored key).limitText = limit.text := by
  cases limit with
  | unlimited => rfl
  | bytes count => simp [QuotaRow.limitText, stored, bytes?, ofBytes?]

namespace Database

/-- What is to be noted of a script. -/
def noted (db : Database) (owner name : String) : Option Noted :=
  (db.scriptRow? owner name).map ScriptRow.noted

/-- The text of the limit of a key. -/
def notedLimit (db : Database) (key : QuotaKey) : Option String :=
  (db.quotaRow? key).map QuotaRow.limitText

variable {db : Database} {owner name : String}

lemma noted_of_findScript (hdb : db.Schema) {found : Option Script}
    (h : db.findScript owner name = .ok found) :
    db.noted owner name = found.map fun s => ⟨s.size, s.active⟩ := by
  cases found with
  | none =>
      rw [noted, optionMapM_eq_none_iff.mp h]
      rfl
  | some s =>
      obtain ⟨r, hr, hread⟩ := optionMapM_eq_some_iff.mp h
      have hshows := ScriptRow.script_eq_ok_iff.mp hread
      have hmem := ((scriptRow?_eq_some_iff hdb).mp hr).1
      have hmark := hshows.marked_iff (hdb.coherent r hmem)
      rw [noted, hr, Option.map_some, Option.map_some, ScriptRow.noted, hshows.size,
        UInt64.toUInt64_toInt64]
      simp only [hmark, Bool.decide_eq_true]

/-- The active script is noted as such. -/
lemma noted_of_findActive (hdb : db.Schema) {s : Script}
    (h : db.findActive owner = .ok (some s)) :
    s.owner = owner ∧ db.noted owner s.name = some ⟨s.size, true⟩ := by
  obtain ⟨r, hr, ho, hm, hshows⟩ := shows_of_findActive hdb h
  have hrow : db.scriptRow? owner s.name = some r :=
    (scriptRow?_eq_some_iff hdb).mpr ⟨hr, ho, hshows.name.symm⟩
  refine ⟨hshows.owner.trans ho, ?_⟩
  rw [noted, hrow, Option.map_some, ScriptRow.noted, hshows.size, UInt64.toUInt64_toInt64]
  simp only [hm, decide_true]

/-- Where no other script is marked, the others are noted as inactive. -/
lemma noted_of_noOtherMarked (hdb : db.Schema) (h : db.NoOtherMarked owner name) {n : String}
    (hn : name ≠ n) :
    (db.noted owner n).map (fun noted => { noted with active := false }) = db.noted owner n := by
  rw [noted]
  cases hrow : db.scriptRow? owner n with
  | none => rfl
  | some r =>
      obtain ⟨hr, ho, hrn⟩ := (scriptRow?_eq_some_iff hdb).mp hrow
      have hunmarked : ¬ r.Marked := fun hm => hn ((h r hr ho hm).symm.trans hrn)
      simp only [Option.map_some, ScriptRow.noted, hunmarked, decide_false]

lemma noted_store (hdb : db.Schema) (s : Script) (o n : String) :
    (db.store s).noted o n =
      if s.owner = o ∧ s.name = n then some ⟨s.size, s.active⟩ else db.noted o n := by
  rw [noted, scriptRow?_store hdb]
  split_ifs
  · rw [Option.map_some, s.stored_noted]
  · rfl

lemma noted_deleteScript (owner name o n : String) :
    (db.deleteScript owner name).noted o n =
      if owner = o ∧ name = n then none else db.noted o n := by
  rw [noted, scriptRow?_deleteScript]
  split_ifs <;> rfl

lemma notedLimit_storeLimit (hdb : db.Schema) (key : QuotaKey) (limit : Limit) (k : QuotaKey) :
    (db.storeLimit key limit).notedLimit k =
      if key.storageKey = k.storageKey then some limit.text else db.notedLimit k := by
  have hstored : Keyed.key (limit.stored key) = key.storageKey := rfl
  rw [notedLimit, quotaRow?, storeLimit, Table.find?_put hdb.quotas_sorted, hstored]
  split_ifs
  · rw [Option.map_some, limit.stored_limitText]
  · rfl

lemma notedLimit_deleteLimit (key k : QuotaKey) :
    (db.deleteLimit key).notedLimit k =
      if key.storageKey = k.storageKey then none else db.notedLimit k := by
  rw [notedLimit, quotaRow?, deleteLimit, Table.find?_erase]
  split_ifs <;> rfl

/-- Activating a script beside which no other one is marked. -/
lemma noted_store_activate (hdb : db.Schema) {now : Instant} {target : Script}
    (hfind : db.findScript owner name = .ok (some target)) (hother : db.NoOtherMarked owner name)
    (o n : String) :
    (db.store (target.activate now)).noted o n =
      if owner = o then (db.noted o n).map fun noted => { noted with active := name = n }
      else db.noted o n := by
  obtain ⟨r, -, hro, hrn, hshows⟩ := shows_of_findScript hdb hfind
  have howner : (target.activate now).owner = owner := hshows.owner.trans hro
  have hname : (target.activate now).name = name := hshows.name.trans hrn
  rw [noted_store hdb, howner, hname]
  by_cases ho : owner = o
  · subst ho
    by_cases hn : name = n
    · subst hn
      rw [noted_of_findScript hdb hfind]
      simp [Script.activate]
    · simp only [hn, and_false, if_false, if_true, decide_false]
      exact (noted_of_noOtherMarked hdb hother hn).symm
  · simp only [ho, false_and, if_false]

/-- Switching the active script off. -/
lemma noted_store_deactivate (hdb : db.Schema) {s : Script}
    (hfind : db.findActive owner = .ok (some s)) (o n : String) :
    (db.store s.deactivate).noted o n =
      if owner = o ∧ s.name = n then
        (db.noted o n).map fun noted => { noted with active := false }
      else db.noted o n := by
  obtain ⟨howner, hnoted⟩ := noted_of_findActive hdb hfind
  have ho : s.deactivate.owner = owner := howner
  have hn : s.deactivate.name = s.name := rfl
  rw [noted_store hdb, ho, hn]
  split_ifs with hkey
  · rw [← hkey.1, ← hkey.2, hnoted]
    rfl
  · rfl

/-- Making a script the only active one. -/
lemma noted_switchOver (hdb : db.Schema) {now : Instant} {target : Script} {current : Option Script}
    (hfind : db.findScript owner name = .ok (some target))
    (hactive : db.findActive owner = .ok current) (o n : String) :
    (db.storeAll (Repository.switchOver now target current)).noted o n =
      if owner = o then (db.noted o n).map fun noted => { noted with active := name = n }
      else db.noted o n := by
  obtain ⟨r, -, -, hrn, hshows⟩ := shows_of_findScript hdb hfind
  have hname : target.name = name := hshows.name.trans hrn
  cases current with
  | none =>
      exact noted_store_activate hdb hfind (noOtherMarked_of_findActive_none hactive name) o n
  | some other =>
      by_cases hsame : other.name = target.name
      · have hother := noOtherMarked_of_findActive hdb hactive
        rw [hsame, hname] at hother
        rw [Repository.switchOver_of_eq hsame]
        exact noted_store_activate hdb hfind hother o n
      · obtain ⟨q, -, -, -, hq⟩ := shows_of_findActive hdb hactive
        have htakes : db.Takes other.deactivate := takes_deactivate hq.storable
        -- once the other script is off, the target is found as before and has no rival
        have hstill : (db.store other.deactivate).findScript owner name = .ok (some target) := by
          have hapart : ¬ (other.deactivate.owner = owner ∧ other.deactivate.name = name) :=
            fun hkey => hsame (hkey.2.trans hname.symm)
          rw [findScript_store hdb htakes.storable htakes.coherent (fun _ ht => nomatch ht),
            if_neg hapart, hfind]
        have halone := noOtherMarked_store_deactivate hdb hactive name
        rw [Repository.switchOver_of_ne hsame]
        refine (noted_store_activate (hdb.store htakes) hstill halone o n).trans ?_
        rw [noted_store_deactivate hdb hactive]
        by_cases ho : owner = o
        · rw [if_pos ho, if_pos ho]
          split_ifs
          · rw [Option.map_map]
            rfl
          · rfl
        · rw [if_neg ho, if_neg ho, if_neg fun hkey => ho hkey.1]

/-- The audit knows what is to be noted of the tables, and no limits of other keys. -/
structure Traced (db : Database) (audit : Audit) : Prop where
  /-- The scripts are known. -/
  script : ∀ owner name, audit.script owner name = db.noted owner name
  /-- The limits are known. -/
  limit : ∀ key, Repository.checkKey key = .ok () → audit.limit key.text = db.notedLimit key
  /-- Limits are known under the texts of keys only. -/
  keys : ∀ text value, audit.limit text = some value →
    ∃ key, Repository.checkKey key = .ok () ∧ key.text = text

lemma traced_empty : empty.Traced .blank where
  script _ _ := rfl
  limit _ _ := rfl
  keys _ _ h := nomatch h

namespace Traced

variable {audit : Audit} {key : QuotaKey}

/-- What is noted of scripts leaves the limits alone. -/
lemma of_noted (h : db.Traced audit) {after : Database} {audit' : Audit}
    (hquotas : after.quotas = db.quotas) (hlimit : audit'.limit = audit.limit)
    (hscript : ∀ o n, audit'.script o n = after.noted o n) : after.Traced audit' where
  script := hscript
  limit k hk := by
    have hsame : after.notedLimit k = db.notedLimit k := by
      rw [notedLimit, notedLimit, quotaRow?, quotaRow?, hquotas]
    rw [hlimit, hsame]
    exact h.limit k hk
  keys text value htext := h.keys text value (hlimit ▸ htext)

/-- What is noted of one limit, or that it is gone, leaves scripts and other limits alone. -/
lemma of_update (h : db.Traced audit) (hkey : Repository.checkKey key = .ok ()) {after : Database}
    {value : Option String} (hscripts : after.scripts = db.scripts)
    (hlimit : ∀ k, after.notedLimit k =
      if key.storageKey = k.storageKey then value else db.notedLimit k) :
    after.Traced { audit with limit := Function.update audit.limit key.text value } where
  script owner name := by
    rw [h.script, noted, noted, scriptRow?, scriptRow?, hscripts]
  limit k hk := by
    simp only [hlimit, QuotaKey.storageKey_inj (ne_of_checkKey hkey) (ne_of_checkKey hk)]
    split_ifs with hsame
    · rw [hsame, Function.update_self]
    · rw [Function.update_of_ne fun htext => hsame (QuotaKey.text_injective htext).symm,
        h.limit k hk]
  keys text v htext := by
    by_cases hsame : text = key.text
    · exact ⟨key, hkey, hsame.symm⟩
    · exact h.keys text v ((Function.update_of_ne hsame _ _).symm.trans htext)

lemma setLimit (h : db.Traced audit) (hdb : db.Schema) (hkey : Repository.checkKey key = .ok ())
    (limit : Limit) : (db.storeLimit key limit).Traced (audit.setLimit key.text limit.text) :=
  h.of_update hkey rfl (notedLimit_storeLimit hdb key limit)

lemma removeLimit (h : db.Traced audit) (hkey : Repository.checkKey key = .ok ()) :
    (db.deleteLimit key).Traced (audit.removeLimit key.text) :=
  h.of_update hkey rfl (notedLimit_deleteLimit key)

end Traced

end Database

/-! ### Steps -/

namespace Operation

open Repository

variable {now : Instant} {op : Operation} {db after : Database} {event : Event} {audit : Audit}

/-- What an operation writes is reported as information. -/
lemma Writes.level_eq (h : Writes now db op event after) : event.level = .info := by
  cases h <;> rfl

/-- The event that reports a write tells what was written. -/
theorem Writes.traced (h : Writes now db op event after) (hdb : db.Schema)
    (hc : op.checks = .ok ()) (ht : db.Traced audit) : after.Traced (audit.note event.logged) := by
  cases h with
  | @put owner name content previous names verdict found =>
      rw [Audit.note_stored]
      refine ht.of_noted rfl rfl fun o n => ?_
      simp only [Audit.store, ht.script, Database.noted_of_findScript hdb found]
      rw [Database.noted_store hdb, replacement_owner, replacement_name]
      cases previous with
      | none => rfl
      | some p => rfl
  | @switchOff owner s found =>
      rw [Audit.note_deactivated]
      refine ht.of_noted rfl rfl fun o n => ?_
      simp only [Audit.deactivate, ht.script]
      rw [Database.noted_store_deactivate hdb found]
  | @activate owner name target current named found active =>
      rw [Audit.note_activated]
      refine ht.of_noted (Database.quotas_storeAll _ _) rfl fun o n => ?_
      simp only [Audit.activate, ht.script]
      rw [Database.noted_switchOver hdb found active]
  | @delete owner name s found inactive =>
      rw [Audit.note_deleted]
      refine ht.of_noted rfl rfl fun o n => ?_
      simp only [Audit.delete, ht.script]
      rw [Database.noted_deleteScript]
  | @rename owner source target s names found free =>
      rw [Audit.note_renamed]
      refine ht.of_noted rfl rfl fun o n => ?_
      obtain ⟨r, -, hro, -, hshows⟩ := Database.shows_of_findScript hdb found
      have howner : (s.renamed target).owner = owner := hshows.owner.trans hro
      simp only [Audit.rename, ht.script, Database.noted_of_findScript hdb found]
      rw [Database.noted_store hdb.deleteScript, howner, Database.noted_deleteScript]
      rfl
  | setDefaultQuota storable =>
      rw [Audit.note_quotaSet]
      exact ht.setLimit hdb rfl _
  | @setQuota owner limit named storable =>
      rw [Audit.note_quotaSet]
      have hkey : checkKey (.owner owner) = .ok () := named
      exact ht.setLimit hdb hkey limit
  | removeDefaultQuota found =>
      rw [Audit.note_quotaRemoved]
      exact ht.removeLimit rfl
  | @removeQuota owner found =>
      rw [Audit.note_quotaRemoved]
      have hkey : checkKey (.owner owner) = .ok () := hc
      exact ht.removeLimit hkey

/-- The log of an operation tells what the operation leaves. -/
theorem traced_run (hdb : db.Schema) (hfit : op.Fits) (ht : db.Traced audit) (now : Instant) :
    (op.run now db).database.Traced
      (audit.replay ((op.run now db).events.map Event.logged)) := by
  cases hc : op.checks with
  | error e =>
      rw [run_of_checks_error hc]
      exact ht
  | ok u =>
      have hends := ends_run hdb hfit hc now
      generalize op.run now db = o at hends
      cases hends with
      | refused e =>
          rw [← audit.replay_failed op.label op.subject e] at ht
          exact ht
      | answered a => exact ht
      | wrote writes =>
          rw [List.map_singleton, Audit.replay_singleton _ writes.level_eq]
          exact writes.traced hdb hc ht

/-- An operation keeps the marks in the rows 0 or 1. -/
lemma marks_run (hdb : db.Schema) (hfit : op.Fits) (now : Instant)
    (h : ∀ r ∈ db.scripts, r.active = 0 ∨ r.active = 1) :
    ∀ r ∈ (op.run now db).database.scripts, r.active = 0 ∨ r.active = 1 := by
  intro r hr
  rcases database_run hdb hfit now with hsame | ⟨event, writes⟩
  · rw [hsame] at hr
    exact h r hr
  · rcases writes.scripts hdb hr with hr | ⟨s, rfl, -⟩
    · exact h r hr
    · rw [Script.stored]
      cases s.active with
      | true => exact .inr rfl
      | false => exact .inl rfl

end Operation

/-! ### Sessions -/

/-- The log of a session. -/
def logOf (responses : List Response) : List LogEntry :=
  responses.flatMap fun response => response.events.map Event.logged

/-- What holds between the database, the audit and the rows along a session. -/
structure Database.Audited (db : Database) (audit : Audit) : Prop where
  /-- Sizes are the lengths of the contents, and quota entries can be read. -/
  accounted : db.Accounted
  /-- Marks are 0 or 1. -/
  marks : ∀ r ∈ db.scripts, r.active = 0 ∨ r.active = 1
  /-- The audit knows what is to be noted. -/
  traced : db.Traced audit

/-- A request of the library goes on record. -/
lemma Request.audited_run {request : Request} (hlib : request.OfLibrary) (now : Instant)
    {db : Database} {audit : Audit} (h : db.Audited audit) :
    (request.run now db).database.Audited
      (audit.replay ((request.run now db).events.map Event.logged)) := by
  cases request with
  | operation op =>
      exact ⟨Operation.accounted_run h.accounted hlib now,
        Operation.marks_run h.accounted.schema hlib now h.marks,
        Operation.traced_run h.accounted.schema hlib h.traced now⟩
  | setUp => exact h
  | reopen path =>
      have hnote : audit.replay [(Event.opened path).logged] = audit := by
        rw [Audit.replay_singleton audit rfl, Audit.note_opened]
      rw [← hnote] at h
      exact h
  | statement step => exact hlib.elim
  | batch steps final => exact hlib.elim

/-- A session of the library goes on record. -/
lemma audited_runSession {session : List (Instant × Request)}
    (hlib : ∀ call ∈ session, call.2.OfLibrary) {db : Database} {audit : Audit}
    (h : db.Audited audit) :
    (runSession session db).2.Audited (audit.replay (logOf (runSession session db).1)) := by
  induction session generalizing db audit with
  | nil => exact h
  | cons call rest ih =>
      have hfirst := Request.audited_run (hlib call List.mem_cons_self) call.1 h
      have hlast := ih (fun next hnext => hlib next (List.mem_cons_of_mem call hnext)) hfirst
      have hlog : logOf (runSession (call :: rest) db).1 =
          (call.2.run call.1 db).events.map Event.logged ++
            logOf (runSession rest (call.2.run call.1 db).database).1 := rfl
      rw [hlog, Audit.replay_append]
      exact hlast

/-- The row is what is noted. -/
structure ScriptRow.Tells (r : ScriptRow) (noted : Noted) : Prop where
  /-- The size. -/
  size : r.size.toInt = noted.size.toNat
  /-- The mark. -/
  active : r.active = if noted.active then 1 else 0

/-- A row with an exact size and a proper mark is what is noted of it. -/
lemma ScriptRow.Exact.tells {r : ScriptRow} (h : r.Exact) (hmark : r.active = 0 ∨ r.active = 1) :
    r.Tells r.noted where
  size := by
    have hpos : 0 ≤ r.size := by
      rw [Int64.le_iff_toInt_le, show r.size.toInt = _ from h, Int64.toInt_zero]
      omega
    have hnat : r.size.toUInt64.toNat = r.size.toInt.toNat := Int64.toNat_toUInt64_of_le hpos
    rw [noted, hnat, show r.size.toInt = _ from h, Int.toNat_natCast]
  active := by
    rcases hmark with hzero | hone
    · simp [noted, Marked, hzero]
    · simp [noted, Marked, hone]

/-- A sound quota row is that of a limit under a key that the repository uses. -/
lemma QuotaRow.Sound.exists_stored {r : QuotaRow} (h : r.Sound) :
    ∃ (key : QuotaKey) (limit : Limit),
      Repository.checkKey key = .ok () ∧ r = limit.stored key := by
  obtain ⟨key, hkey, hstorage⟩ :
      ∃ key, Repository.checkKey key = .ok () ∧ r.key = key.storageKey := by
    rcases h.key with hdefault | hname
    · exact ⟨.default, rfl, hdefault⟩
    · refine ⟨.owner r.key, ?_, rfl⟩
      rwa [Repository.checkKey, Repository.checkOwner, Name.require_eq_ok_iff,
        ← Name.check_eq_ok_iff]
  refine ⟨key, Limit.ofBytes? (r.limit.map Int64.toUInt64), hkey, ?_⟩
  obtain ⟨text, stored⟩ := r
  obtain rfl : text = key.storageKey := hstorage
  cases stored with
  | none => rfl
  | some i => simp [Limit.stored]

/-- **The audit trail**: whoever reads the informative entries of the log of a session of the
library on an empty database, and nothing else, knows owner, name, size and mark of every script and
key and limit of every quota entry that the session leaves, and knows of no others. No two keys and
no two limits have the same text. -/
theorem traced_runSession {session : List (Instant × Request)}
    (hlib : ∀ call ∈ session, call.2.OfLibrary) :
    let db := (runSession session .empty).2
    let audit := Audit.blank.replay (logOf (runSession session .empty).1)
    (∀ r ∈ db.scripts, ∃ noted, audit.script r.owner r.name = some noted ∧ r.Tells noted) ∧
    (∀ owner name noted, audit.script owner name = some noted →
      ∃ r ∈ db.scripts, r.owner = owner ∧ r.name = name ∧ r.Tells noted) ∧
    (∀ r ∈ db.quotas, ∃ (key : QuotaKey) (limit : Limit), Repository.checkKey key = .ok () ∧
      r = limit.stored key ∧ audit.limit key.text = some limit.text) ∧
    (∀ text value, audit.limit text = some value →
      ∃ (key : QuotaKey) (limit : Limit), Repository.checkKey key = .ok () ∧ key.text = text ∧
        limit.text = value ∧ limit.stored key ∈ db.quotas) ∧
    Function.Injective QuotaKey.text ∧ Function.Injective Limit.text := by
  intro db audit
  obtain ⟨haccounted, hmarks, htraced⟩ : db.Audited audit :=
    audited_runSession hlib ⟨Database.accounted_empty, nofun, Database.traced_empty⟩
  have hschema := haccounted.schema
  have htells : ∀ r ∈ db.scripts, r.Tells r.noted := fun r hr =>
    (haccounted.exact r hr).tells (hmarks r hr)
  refine ⟨fun r hr => ⟨r.noted, ?_, htells r hr⟩, fun owner name noted hnoted => ?_,
    fun r hr => ?_, fun text value hvalue => ?_, QuotaKey.text_injective, Limit.text_injective⟩
  · have hrow := (Database.scriptRow?_eq_some_iff hschema).mpr ⟨hr, rfl, rfl⟩
    rw [htraced.script, Database.noted, hrow, Option.map_some]
  · rw [htraced.script] at hnoted
    obtain ⟨r, hr, rfl⟩ := Option.map_eq_some_iff.mp hnoted
    obtain ⟨hmem, ho, hn⟩ := (Database.scriptRow?_eq_some_iff hschema).mp hr
    exact ⟨r, hmem, ho, hn, htells r hmem⟩
  · obtain ⟨key, limit, hkey, rfl⟩ := (haccounted.quotas r hr).exists_stored
    have hrow : db.quotaRow? key = some (limit.stored key) :=
      (Database.quotaRow?_eq_some_iff hschema).mpr ⟨hr, rfl⟩
    refine ⟨key, limit, hkey, rfl, ?_⟩
    rw [htraced.limit key hkey, Database.notedLimit, hrow, Option.map_some,
      limit.stored_limitText]
  · obtain ⟨key, hkey, rfl⟩ := htraced.keys text value hvalue
    rw [htraced.limit key hkey] at hvalue
    obtain ⟨r, hr, rfl⟩ := Option.map_eq_some_iff.mp hvalue
    obtain ⟨hmem, hstorage⟩ := (Database.quotaRow?_eq_some_iff hschema).mp hr
    obtain ⟨other, limit, hother, rfl⟩ := (haccounted.quotas r hmem).exists_stored
    obtain rfl : other = key :=
      (QuotaKey.storageKey_inj (ne_of_checkKey hother) (ne_of_checkKey hkey)).mp hstorage
    exact ⟨other, limit, hkey, rfl, (limit.stored_limitText other).symm, hmem⟩

/-- The trail of a script that is stored, activated and renamed, of a refused content and of a
limit. -/
theorem traced_runSession_renamed :
    let session : List (Instant × Request) :=
      [(.epoch, .setUp), (.epoch, .operation (.put "ann" "day" "keep;")),
        (.epoch, .operation (.setActive "ann" "day")),
        (.epoch, .operation (.setQuota "ann" (.bytes 5))),
        (.epoch, .operation (.put "ann" "dawn" "stop;")),
        (.epoch, .operation (.rename "ann" "day" "night"))]
    let db := (runSession session .empty).2
    let audit := Audit.blank.replay (logOf (runSession session .empty).1)
    db.scripts = [⟨"ann", "night", "keep;", 5, 1, some "1970-01-01T00:00:00+00:00"⟩] ∧
      audit.script "ann" "night" = some ⟨5, true⟩ ∧ audit.script "ann" "day" = none ∧
      audit.script "ann" "dawn" = none ∧ audit.limit "quota for ann" = some "5" ∧
      (∀ owner name noted, audit.script owner name = some noted →
        ∃ r ∈ db.scripts, r.owner = owner ∧ r.name = name ∧ r.Tells noted) := by
  intro session db audit
  have hkeep : "keep;".utf8ByteSize < columnBound := by decide +kernel
  have hstop : "stop;".utf8ByteSize < columnBound := by decide +kernel
  have hlib : ∀ call ∈ session, call.2.OfLibrary := by
    simp only [session, List.forall_mem_cons]
    exact ⟨trivial, hkeep, trivial, trivial, hstop, trivial, List.forall_mem_nil _⟩
  exact ⟨by decide +kernel, by decide +kernel, by decide +kernel, by decide +kernel,
    by decide +kernel, (traced_runSession hlib).2.1⟩

end FilterStore
