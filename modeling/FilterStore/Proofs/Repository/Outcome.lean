import FilterStore.Proofs.Store.Statement
import FilterStore.Repository.Session

/-!
The outcome of each method, read off the rows it looks up.

* **Steps.** `run_bind_of_ok` and `run_bind_of_error` take an action apart at its first step, and
  `required_of_error` and its siblings do so for a lookup that has to find something.
* **Transactions.** `transaction_of_ok` and `transaction_of_error` say what becomes of an action that
  succeeds or fails, and `inTransaction_of_ok` and `inTransaction_of_error` what is reported of it. A
  failure in a transaction is `Outcome.refused`: it is reported and changes nothing.
* **Space.** `spaceVerdict` is the verdict of the space check as a function of the rows
  (`checkSpace_run`).
* **Methods.** One equation for each method, in the order of its lookups: `put_stored`,
  `activate_eq`, `deactivate_eq`, `delete_eq`, `rename_eq` and so on. The writes never break a rule
  of the tables, so no equation has a case for it.
-/

namespace FilterStore

/-! ### Steps of an action -/

namespace Action

variable {α β : Type} {db after : Database}

lemma run_bind_of_ok {x : Action α} {a : α} (h : x db = .ok a after) (f : α → Action β) :
    (x >>= f) db = f a after := by
  simp only [bind, EStateM.bind, h]

lemma run_bind_of_error {x : Action α} {e : Failure} (h : x db = .error e after)
    (f : α → Action β) : (x >>= f) db = .error e after := by
  simp only [bind, EStateM.bind, h]

lemma query_of_ok {read : Database → Except StorageFault α} {a : α} (h : read db = .ok a) :
    query read db = .ok a db := by
  simp only [query, h]

lemma query_of_error {read : Database → Except StorageFault α} {f : StorageFault}
    (h : read db = .error f) : query read db = .error (.storage f) db := by
  simp only [query, h]

lemma change_of_ok {write : Database → Except Failure Database} (h : write db = .ok after) :
    change write db = .ok () after := by
  simp only [change, h]

lemma change_of_error {write : Database → Except Failure Database} {e : Failure}
    (h : write db = .error e) : change write db = .error e db := by
  simp only [change, h]

section Required

variable {read : Database → Except StorageFault (Option α)} (e : Failure)

/-- A lookup that has to find something fails where it cannot be made. -/
lemma required_of_error {f : StorageFault} (h : read db = .error f) :
    (query read >>= Repository.orFail e) db = .error (.storage f) db :=
  run_bind_of_error (query_of_error h) _

/-- Where there is nothing it fails in the given way. -/
lemma required_of_none (h : read db = .ok none) :
    (query read >>= Repository.orFail e) db = .error e db :=
  run_bind_of_ok (query_of_ok h) _

/-- Otherwise it gives what it finds. -/
lemma required_of_some {a : α} (h : read db = .ok (some a)) :
    (query read >>= Repository.orFail e) db = .ok a db :=
  run_bind_of_ok (query_of_ok h) _

end Required

/-- A deletion tells whether there was an entry and takes it out. -/
lemma deleteLimit_run (key : QuotaKey) (db : Database) :
    deleteLimit key db = .ok (db.quotaRow? key).isSome (db.deleteLimit key) :=
  rfl

end Action

/-! ### Transactions -/

section Transactions

variable {α : Type} {act : Action α} {db after : Database}

/-- A transaction keeps the writes of an action that succeeds. -/
lemma transaction_of_ok {a : α} (h : act db = .ok a after) : transaction act db = .ok a after := by
  simp only [transaction, h]

/-- It takes back all writes of one that fails. -/
lemma transaction_of_error {e : Failure} (h : act db = .error e after) :
    transaction act db = .error e db := by
  simp only [transaction, h]

end Transactions

/-! ### Transactions of the repository -/

/-- The outcome of an operation that fails in its transaction: the failure is reported under the
name of the operation, and nothing changes. -/
def Outcome.refused {α : Type} (operation owner : String) (failure : Failure) (db : Database) :
    Outcome α :=
  ⟨.error failure, [.failed operation owner failure], db⟩

namespace Outcome

variable {α β γ : Type}

/-- Taking the answer as it is changes nothing. -/
lemma andThen_ok (o : Outcome α) : o.andThen .ok = o := by
  obtain ⟨result, events, database⟩ := o
  cases result <;> rfl

lemma andThen_andThen (o : Outcome α) (f : α → Except Failure β) (g : β → Except Failure γ) :
    (o.andThen f).andThen g = o.andThen fun a => (f a).bind g := by
  obtain ⟨result, events, database⟩ := o
  cases result <;> rfl

lemma map_eq_andThen (o : Outcome α) (f : α → β) : o.map f = o.andThen fun a => .ok (f a) := by
  obtain ⟨result, events, database⟩ := o
  cases result <;> rfl

lemma map_map (o : Outcome α) (f : α → β) (g : β → γ) :
    (o.map f).map g = o.map fun a => g (f a) := by
  obtain ⟨result, events, database⟩ := o
  cases result <;> rfl

lemma map_self (o : Outcome α) : (o.map fun a => a) = o := by
  obtain ⟨result, events, database⟩ := o
  cases result <;> rfl

end Outcome

namespace Repository

open FilterStore.Action

variable {α : Type} {db after : Database} {owner name target : String}

lemma afterChecks_of_ok {checks : Except Failure Unit} (h : checks = .ok ()) (method : Method α) :
    afterChecks checks method db = method db := by
  simp only [afterChecks, h]

lemma afterChecks_of_error {checks : Except Failure Unit} {e : Failure} (h : checks = .error e)
    (method : Method α) : afterChecks checks method db = ⟨.error e, [], db⟩ := by
  simp only [afterChecks, h]

/-- Only a method whose checks pass succeeds. -/
lemma checks_of_ok {checks : Except Failure Unit} {method : Method α} {a : α}
    (h : (afterChecks checks method db).result = .ok a) : checks = .ok () := by
  cases hc : checks with
  | ok u => rfl
  | error e =>
      rw [afterChecks_of_error hc] at h
      cases h

lemma inTransaction_of_ok {operation : String} {act : Action α} {report : α → List Event} {a : α}
    (h : act db = .ok a after) :
    inTransaction operation owner act report db = ⟨.ok a, report a, after⟩ := by
  simp only [inTransaction, transaction_of_ok h]

lemma inTransaction_of_error {operation : String} {act : Action α} {report : α → List Event}
    {e : Failure} (h : act db = .error e after) :
    inTransaction operation owner act report db = .refused operation owner e db := by
  simp only [inTransaction, transaction_of_error h, Outcome.refused]

/-- Only what the action does on the database matters. -/
lemma inTransaction_congr {operation : String} {act act' : Action α} (h : act db = act' db)
    (report : α → List Event) :
    inTransaction operation owner act report db = inTransaction operation owner act' report db := by
  simp only [inTransaction, transaction, h]

lemma checkScript_eq_ok_iff :
    checkScript owner name = .ok () ↔
      checkOwner owner = .ok () ∧ Name.require .script name = .ok () := by
  rw [checkScript, checkOwner]
  cases Name.require .owner owner <;> simp [bind, Except.bind]

/-! ### Space -/

/-- Whether so many bytes under a name fit the limit in force for the owner. -/
def spaceVerdict (owner name : String) (size : UInt64) (db : Database) : Except Failure Unit := do
  let scripts ← (db.findAll owner).mapError .storage
  let own ← (db.findLimit (.owner owner)).mapError .storage
  let default ← (db.findLimit .default).mapError .storage
  let limit := effectiveLimit own default
  if limit.admits (usedBeside name scripts) size then
    .ok ()
  else
    .error (.quotaExceeded owner (usedBeside name scripts) size (limit.bytes?.getD greatestCount))

/-- Where everything it looks up can be read, the verdict compares the sum with the limit. -/
lemma spaceVerdict_of_found {size : UInt64} {scripts : List Script} {own default : Option Limit}
    (hall : db.findAll owner = .ok scripts) (hown : db.findLimit (.owner owner) = .ok own)
    (hdefault : db.findLimit .default = .ok default) :
    spaceVerdict owner name size db =
      if (effectiveLimit own default).admits (usedBeside name scripts) size then .ok ()
      else .error (.quotaExceeded owner (usedBeside name scripts) size
        ((effectiveLimit own default).bytes?.getD greatestCount)) := by
  simp only [spaceVerdict, hall, hown, hdefault, Except.mapError, bind, Except.bind]

/-- The space check gives its verdict and changes nothing. -/
theorem checkSpace_run (owner name : String) (size : UInt64) (db : Database) :
    checkSpace owner name size db =
      match spaceVerdict owner name size db with
      | .ok () => .ok () db
      | .error e => .error e db := by
  cases hall : db.findAll owner with
  | error f =>
      have hv : spaceVerdict owner name size db = .error (.storage f) := by
        simp only [spaceVerdict, hall, Except.mapError, bind, Except.bind]
      rw [hv]
      exact run_bind_of_error (query_of_error hall) _
  | ok scripts =>
      cases hown : db.findLimit (.owner owner) with
      | error f =>
          have hv : spaceVerdict owner name size db = .error (.storage f) := by
            simp only [spaceVerdict, hall, hown, Except.mapError, bind, Except.bind]
          rw [hv]
          exact (run_bind_of_ok (query_of_ok hall) _).trans
            (run_bind_of_error (query_of_error hown) _)
      | ok own =>
          cases hdefault : db.findLimit .default with
          | error f =>
              have hv : spaceVerdict owner name size db = .error (.storage f) := by
                simp only [spaceVerdict, hall, hown, hdefault, Except.mapError, bind, Except.bind]
              rw [hv]
              exact (run_bind_of_ok (query_of_ok hall) _).trans
                ((run_bind_of_ok (query_of_ok hown) _).trans
                  (run_bind_of_error (query_of_error hdefault) _))
          | ok default =>
              rw [spaceVerdict_of_found hall hown hdefault]
              refine ((run_bind_of_ok (query_of_ok hall) _).trans
                ((run_bind_of_ok (query_of_ok hown) _).trans
                  (run_bind_of_ok (query_of_ok hdefault) _))).trans ?_
              split_ifs <;> rfl

/-- A favourable verdict rests on rows that can all be read. -/
lemma found_of_spaceVerdict {size : UInt64} (h : spaceVerdict owner name size db = .ok ()) :
    ∃ scripts own default, db.findAll owner = .ok scripts ∧
      db.findLimit (.owner owner) = .ok own ∧ db.findLimit .default = .ok default ∧
      (effectiveLimit own default).admits (usedBeside name scripts) size = true := by
  cases hall : db.findAll owner with
  | error f => simp [spaceVerdict, hall, Except.mapError, bind, Except.bind] at h
  | ok scripts =>
      cases hown : db.findLimit (.owner owner) with
      | error f => simp [spaceVerdict, hall, hown, Except.mapError, bind, Except.bind] at h
      | ok own =>
          cases hdefault : db.findLimit .default with
          | error f =>
              simp [spaceVerdict, hall, hown, hdefault, Except.mapError, bind, Except.bind] at h
          | ok default =>
              rw [spaceVerdict_of_found hall hown hdefault] at h
              refine ⟨scripts, own, default, rfl, rfl, rfl, ?_⟩
              by_contra hadmits
              rw [if_neg hadmits] at h
              cases h

/-- The question whether bytes fit is answered by the verdict. -/
theorem haveSpace_eq (ho : checkOwner owner = .ok ()) (name : String) (size : UInt64)
    (db : Database) :
    haveSpace owner name size db =
      match spaceVerdict owner name size db with
      | .ok () => ⟨.ok (), [], db⟩
      | .error e => .refused "have_space" owner e db := by
  have hrun := checkSpace_run owner name size db
  rw [haveSpace, afterChecks_of_ok ho]
  cases hv : spaceVerdict owner name size db with
  | ok u =>
      rw [hv] at hrun
      exact inTransaction_of_ok hrun
  | error e =>
      rw [hv] at hrun
      exact inTransaction_of_error hrun

/-! ### Reading methods -/

/-- The listing shows what is read of the owner's rows. -/
theorem list_eq (ho : checkOwner owner = .ok ()) (db : Database) :
    list owner db =
      match db.findAll owner with
      | .error f => .refused "list_scripts" owner (.storage f) db
      | .ok scripts => ⟨.ok (scripts.map Script.summary), [], db⟩ := by
  rw [list, afterChecks_of_ok ho]
  cases hall : db.findAll owner with
  | error f => exact inTransaction_of_error (run_bind_of_error (query_of_error hall) _)
  | ok scripts => exact inTransaction_of_ok (run_bind_of_ok (query_of_ok hall) _)

theorem get_eq (ho : checkOwner owner = .ok ()) (name : String) (db : Database) :
    get owner name db =
      match db.findScript owner name with
      | .error f => .refused "get_script" owner (.storage f) db
      | .ok none => .refused "get_script" owner (.scriptNotFound name owner) db
      | .ok (some s) => ⟨.ok s.content, [], db⟩ := by
  rw [get, afterChecks_of_ok ho]
  rcases hfind : db.findScript owner name with f | _ | s
  · exact inTransaction_of_error (run_bind_of_error (required_of_error _ hfind) _)
  · exact inTransaction_of_error (run_bind_of_error (required_of_none _ hfind) _)
  · exact inTransaction_of_ok (run_bind_of_ok (required_of_some _ hfind) _)

theorem active_eq (ho : checkOwner owner = .ok ()) (db : Database) :
    active owner db =
      match db.findActive owner with
      | .error f => .refused "get_active" owner (.storage f) db
      | .ok none => .refused "get_active" owner (.noActiveScript owner) db
      | .ok (some s) => ⟨.ok s, [], db⟩ := by
  rw [active, afterChecks_of_ok ho]
  rcases hfind : db.findActive owner with f | _ | s
  · exact inTransaction_of_error (required_of_error _ hfind)
  · exact inTransaction_of_error (required_of_none _ hfind)
  · exact inTransaction_of_ok (required_of_some _ hfind)

/-! ### Writing methods -/

/-- Scripts that are taken in turn are stored one after another. -/
lemma forM_upsertScript_run {scripts : List Script} (h : db.TakesInTurn scripts) :
    scripts.forM upsertScript db = .ok () (db.storeAll scripts) := by
  induction scripts generalizing db with
  | nil => rfl
  | cons s rest ih =>
      have hfirst : upsertScript s db = .ok () (db.store s) :=
        change_of_ok (Database.upsertScript_of_takes h.1)
      exact (run_bind_of_ok hfirst _).trans (ih h.2)

/-- Switching off stores the active script without mark and date, and tells its name. -/
lemma switchOff_run {s : Script} (hdb : db.Schema) (hfind : db.findActive owner = .ok (some s)) :
    switchOff owner db = .ok (some s.name) (db.store s.deactivate) := by
  obtain ⟨r, -, -, -, hrs⟩ := Database.shows_of_findActive hdb hfind
  have hwrite : upsertScript s.deactivate db = .ok () (db.store s.deactivate) :=
    change_of_ok (Database.upsertScript_of_takes (Database.takes_deactivate hrs.storable))
  exact (run_bind_of_ok (query_of_ok hfind) _).trans (run_bind_of_ok hwrite _)

theorem deactivate_eq (hdb : db.Schema) (owner : String) :
    deactivate owner db =
      match db.findActive owner with
      | .error f => .refused "set_active" owner (.storage f) db
      | .ok none => ⟨.ok (), [], db⟩
      | .ok (some s) => ⟨.ok (), [.deactivated owner s.name], db.store s.deactivate⟩ := by
  rw [deactivate]
  rcases hfind : db.findActive owner with f | _ | s
  · have hrun : switchOff owner db = .error (.storage f) db :=
      run_bind_of_error (query_of_error hfind) _
    rw [inTransaction_of_error hrun]
    rfl
  · have hrun : switchOff owner db = .ok none db := run_bind_of_ok (query_of_ok hfind) _
    rw [inTransaction_of_ok hrun]
    rfl
  · rw [inTransaction_of_ok (switchOff_run hdb hfind)]
    rfl

lemma switchOver_of_eq {now : Instant} {target other : Script} (h : other.name = target.name) :
    switchOver now target (some other) = [target.activate now] :=
  if_pos h

lemma switchOver_of_ne {now : Instant} {target other : Script} (h : other.name ≠ target.name) :
    switchOver now target (some other) = [other.deactivate, target.activate now] :=
  if_neg h

/-- The writes that make a script the only active one break no rule, neither at the end nor in
between. -/
lemma takesInTurn_switchOver (hdb : db.Schema) (now : Instant) {target : Script}
    {current : Option Script} (htarget : db.findScript owner name = .ok (some target))
    (hcurrent : db.findActive owner = .ok current) :
    db.TakesInTurn (switchOver now target current) := by
  obtain ⟨r, -, hro, hrn, hrs⟩ := Database.shows_of_findScript hdb htarget
  have howner : owner = target.owner := (hrs.owner.trans hro).symm
  -- the last write needs that nothing else is marked by then
  have hlast : ∀ db' : Database, db'.NoOtherMarked owner target.name →
      db'.Takes (target.activate now) := by
    intro db' hother
    rw [howner] at hother
    exact ⟨hrs.storable, target.coherent_activate now, fun _ => hother⟩
  cases current with
  | none => exact ⟨hlast db (Database.noOtherMarked_of_findActive_none hcurrent _), trivial⟩
  | some other =>
      by_cases hname : other.name = target.name
      · have hother := Database.noOtherMarked_of_findActive hdb hcurrent
        rw [hname] at hother
        rw [switchOver_of_eq hname]
        exact ⟨hlast db hother, trivial⟩
      · obtain ⟨q, -, -, -, hqs⟩ := Database.shows_of_findActive hdb hcurrent
        rw [switchOver_of_ne hname]
        exact ⟨Database.takes_deactivate hqs.storable,
          hlast _ (Database.noOtherMarked_store_deactivate hdb hcurrent _), trivial⟩

/-- What is written to make a script the only active one is this script with mark and date, and
perhaps the one that was active. -/
lemma mem_switchOver {now : Instant} {target s : Script} {current : Option Script}
    (hs : s ∈ switchOver now target current) :
    s = target.activate now ∨ ∃ other, current = some other ∧ s = other.deactivate := by
  cases current with
  | none => exact .inl (List.mem_singleton.mp hs)
  | some other =>
      simp only [switchOver] at hs
      split_ifs at hs
      · exact .inl (List.mem_singleton.mp hs)
      · rcases List.mem_pair.mp hs with rfl | rfl
        · exact .inr ⟨other, rfl, rfl⟩
        · exact .inl rfl

/-- Activating looks the script up, then the active one, and stores what `switchOver` says. -/
theorem activate_eq (hdb : db.Schema) (now : Instant) (owner name : String) :
    activate now owner name db =
      match db.findScript owner name with
      | .error f => .refused "set_active" owner (.storage f) db
      | .ok none => .refused "set_active" owner (.scriptNotFound name owner) db
      | .ok (some target) =>
        match db.findActive owner with
        | .error f => .refused "set_active" owner (.storage f) db
        | .ok current =>
          ⟨.ok (), [.activated owner name], db.storeAll (switchOver now target current)⟩ := by
  rw [activate]
  rcases hfind : db.findScript owner name with f | _ | target
  · exact inTransaction_of_error (run_bind_of_error (required_of_error _ hfind) _)
  · exact inTransaction_of_error (run_bind_of_error (required_of_none _ hfind) _)
  · have hstep := required_of_some (.scriptNotFound name owner) hfind
    cases hactive : db.findActive owner with
    | error f =>
        exact inTransaction_of_error
          ((run_bind_of_ok hstep _).trans (run_bind_of_error (query_of_error hactive) _))
    | ok current =>
        exact inTransaction_of_ok ((run_bind_of_ok hstep _).trans
          ((run_bind_of_ok (query_of_ok hactive) _).trans
            (forM_upsertScript_run (takesInTurn_switchOver hdb now hfind hactive))))

/-- The empty name switches off, every other name is activated. -/
theorem setActive_eq (ho : checkOwner owner = .ok ()) (now : Instant) (name : String)
    (db : Database) :
    setActive now owner name db =
      if name = "" then deactivate owner db else activate now owner name db := by
  rw [setActive, afterChecks_of_ok ho]
  exact apply_ite (fun method : Method Unit => method db) _ _ _

/-- Deleting takes out an inactive script. -/
theorem delete_eq (ho : checkOwner owner = .ok ()) (name : String) (db : Database) :
    delete owner name db =
      match db.findScript owner name with
      | .error f => .refused "delete_script" owner (.storage f) db
      | .ok none => .refused "delete_script" owner (.scriptNotFound name owner) db
      | .ok (some s) =>
        if s.active = true then .refused "delete_script" owner (.scriptActive name owner) db
        else ⟨.ok (), [.deleted owner name], db.deleteScript owner name⟩ := by
  rw [delete, afterChecks_of_ok ho]
  rcases hfind : db.findScript owner name with f | _ | s
  · exact inTransaction_of_error (run_bind_of_error (required_of_error _ hfind) _)
  · exact inTransaction_of_error (run_bind_of_error (required_of_none _ hfind) _)
  · have hstep := required_of_some (.scriptNotFound name owner) hfind
    have hrun := run_bind_of_ok hstep fun script =>
      if script.active = true then (throw (.scriptActive name owner) : Action Unit)
      else discard (Action.deleteScript owner name)
    by_cases ha : s.active = true
    · simp only [if_pos ha] at hrun ⊢
      exact inTransaction_of_error hrun
    · simp only [if_neg ha] at hrun ⊢
      exact inTransaction_of_ok hrun

/-- A script that is out under its old name can be stored under another one. -/
lemma takes_renamed (hdb : db.Schema) {source : String} {s : Script}
    (hfind : db.findScript owner source = .ok (some s)) (target : String) :
    (db.deleteScript owner source).Takes (s.renamed target) := by
  obtain ⟨r, -, hro, -, hrs⟩ := Database.shows_of_findScript hdb hfind
  refine ⟨hrs.storable, hrs.coherent, fun ha q hq hqo hqm => ?_⟩
  -- if it is active it was the only marked script, and that one is out
  obtain ⟨hq, hne⟩ := Database.mem_deleteScript.mp hq
  have howner : q.owner = owner := hqo.trans (hrs.owner.trans hro)
  exact absurd ⟨howner, Database.noOtherMarked_of_findScript hdb hfind ha q hq howner hqm⟩ hne

/-- Renaming takes the script out and stores it under the new name. -/
theorem rename_eq (hdb : db.Schema) (hc : checkScript owner target = .ok ()) (source : String) :
    rename owner source target db =
      match db.findScript owner source with
      | .error f => .refused "rename_script" owner (.storage f) db
      | .ok none => .refused "rename_script" owner (.scriptNotFound source owner) db
      | .ok (some s) =>
        match db.findScript owner target with
        | .error f => .refused "rename_script" owner (.storage f) db
        | .ok (some _) => .refused "rename_script" owner (.nameTaken target owner) db
        | .ok none =>
          ⟨.ok (), [.renamed owner source target],
            (db.deleteScript owner source).store (s.renamed target)⟩ := by
  rw [rename, afterChecks_of_ok hc]
  rcases hfind : db.findScript owner source with f | _ | s
  · exact inTransaction_of_error (run_bind_of_error (required_of_error _ hfind) _)
  · exact inTransaction_of_error (run_bind_of_error (required_of_none _ hfind) _)
  · have hfirst := required_of_some (.scriptNotFound source owner) hfind
    rcases htarget : db.findScript owner target with f | _ | p
    · exact inTransaction_of_error
        ((run_bind_of_ok hfirst _).trans (run_bind_of_error (query_of_error htarget) _))
    · have hwrite : upsertScript (s.renamed target) (db.deleteScript owner source)
          = .ok () ((db.deleteScript owner source).store (s.renamed target)) :=
        change_of_ok (Database.upsertScript_of_takes (takes_renamed hdb hfind target))
      exact inTransaction_of_ok
        ((run_bind_of_ok hfirst _).trans ((run_bind_of_ok (query_of_ok htarget) _).trans hwrite))
    · exact inTransaction_of_error
        ((run_bind_of_ok hfirst _).trans (run_bind_of_ok (query_of_ok htarget) _))

/-- The script that a content becomes: inactive, or with mark and date of the script it replaces. -/
def replacement (owner name content : String) (previous : Option Script) : Script :=
  match previous with
  | some p => (Script.fresh owner name content).inheriting p
  | none => Script.fresh owner name content

/-- A content of fewer than `2^63` bytes has its length as its size. -/
lemma toNat_contentSize {content : String} (h : content.utf8ByteSize < columnBound) :
    (contentSize content).toNat = content.utf8ByteSize := by
  have hbound : columnBound < UInt64.size := by decide
  exact UInt64.toNat_ofNat_of_lt' (h.trans hbound)

/-- The script that a content becomes can be stored. -/
lemma takes_replacement (hdb : db.Schema) {content : String} {previous : Option Script}
    (hfit : content.utf8ByteSize < columnBound)
    (hfind : db.findScript owner name = .ok previous) :
    db.Takes (replacement owner name content previous) := by
  have hsize : (contentSize content).toNat < columnBound :=
    (toNat_contentSize hfit).trans_lt hfit
  cases previous with
  | none => exact ⟨hsize, Script.coherent_fresh _ _ _, nofun⟩
  | some p =>
      obtain ⟨r, -, -, -, hrp⟩ := Database.shows_of_findScript hdb hfind
      have hother : p.active = true → db.NoOtherMarked owner name :=
        Database.noOtherMarked_of_findScript hdb hfind
      exact ⟨hsize, hrp.coherent, hother⟩

/-- A content that does not fit is not stored. -/
theorem put_refused (hc : checkScript owner name = .ok ()) {content : String} {e : Failure}
    (hv : spaceVerdict owner name (contentSize content) db = .error e) :
    put owner name content db = .refused "put_script" owner e db := by
  have hrun := checkSpace_run owner name (contentSize content) db
  rw [hv] at hrun
  rw [put, afterChecks_of_ok hc]
  exact inTransaction_of_error (run_bind_of_error hrun _)

/-- A content that fits is stored as the script that it becomes. -/
lemma put_of_found (hc : checkScript owner name = .ok ()) {content : String}
    {previous : Option Script} (hv : spaceVerdict owner name (contentSize content) db = .ok ())
    (hfind : db.findScript owner name = .ok previous) :
    put owner name content db =
      inTransaction "put_script" owner (upsertScript (replacement owner name content previous))
        (fun _ => [.stored owner name (contentSize content)]) db := by
  have hspace := checkSpace_run owner name (contentSize content) db
  rw [hv] at hspace
  rw [put, afterChecks_of_ok hc]
  refine inTransaction_congr ((run_bind_of_ok hspace _).trans
    ((run_bind_of_ok (query_of_ok hfind) _).trans ?_)) _
  cases previous with
  | none => rfl
  | some p => rfl

/-- Storing a content under proper names is refused in its transaction, or stores the script that it
becomes, however long the content is. -/
theorem put_outcome (hc : checkScript owner name = .ok ()) (content : String) (db : Database) :
    (∃ e, put owner name content db = .refused "put_script" owner e db) ∨
      ∃ previous, spaceVerdict owner name (contentSize content) db = .ok () ∧
        db.findScript owner name = .ok previous ∧
        db.Takes (replacement owner name content previous) ∧
        put owner name content db = ⟨.ok (), [.stored owner name (contentSize content)],
          db.store (replacement owner name content previous)⟩ := by
  cases hv : spaceVerdict owner name (contentSize content) db with
  | error e => exact .inl ⟨e, put_refused hc hv⟩
  | ok u =>
      obtain ⟨scripts, own, default, hall, -, -, -⟩ := found_of_spaceVerdict hv
      have hfind : db.findScript owner name = .ok (scripts.find? fun s => s.name = name) :=
        Database.findScript_of_findAll hall
      generalize scripts.find? (fun s => s.name = name) = previous at hfind
      rw [put_of_found hc hv hfind]
      cases hwrite : db.upsertScript (replacement owner name content previous) with
      | error e => exact .inl ⟨e, inTransaction_of_error (change_of_error hwrite)⟩
      | ok after =>
          obtain ⟨htakes, rfl⟩ := Database.takes_of_upsertScript hwrite
          exact .inr ⟨_, rfl, hfind, htakes, inTransaction_of_ok (change_of_ok hwrite)⟩

/-- Storing a content fails and changes nothing, or stores the script that it becomes, however long
the content is. -/
theorem put_cases (owner name content : String) (db : Database) :
    (∃ e, (put owner name content db).result = .error e ∧
        (put owner name content db).database = db) ∨
      ∃ previous, checkScript owner name = .ok () ∧
        spaceVerdict owner name (contentSize content) db = .ok () ∧
        db.findScript owner name = .ok previous ∧
        db.Takes (replacement owner name content previous) ∧
        put owner name content db = ⟨.ok (), [.stored owner name (contentSize content)],
          db.store (replacement owner name content previous)⟩ := by
  cases hc : checkScript owner name with
  | error e =>
      rw [put, afterChecks_of_error hc]
      exact .inl ⟨e, rfl, rfl⟩
  | ok u =>
      rcases put_outcome hc content db with ⟨e, hput⟩ | ⟨previous, hstored⟩
      · rw [hput]
        exact .inl ⟨e, rfl, rfl⟩
      · exact .inr ⟨previous, rfl, hstored⟩

/-- A content that fits is stored and takes over mark and date of the script it replaces. -/
theorem put_stored (hdb : db.Schema) (hc : checkScript owner name = .ok ()) {content : String}
    (hfit : content.utf8ByteSize < columnBound)
    (hv : spaceVerdict owner name (contentSize content) db = .ok ()) :
    ∃ previous, db.findScript owner name = .ok previous ∧
      put owner name content db = ⟨.ok (), [.stored owner name (contentSize content)],
        db.store (replacement owner name content previous)⟩ := by
  obtain ⟨scripts, own, default, hall, -, -, -⟩ := found_of_spaceVerdict hv
  have hfind : db.findScript owner name = .ok (scripts.find? fun s => s.name = name) :=
    Database.findScript_of_findAll hall
  refine ⟨_, hfind, ?_⟩
  rw [put_of_found hc hv hfind]
  exact inTransaction_of_ok
    (change_of_ok (Database.upsertScript_of_takes (takes_replacement hdb hfit hfind)))

/-! ### Quotas -/

section Quotas

variable (key : QuotaKey)

theorem hasQuota_eq (hk : checkKey key = .ok ()) (db : Database) :
    hasQuota key db =
      match db.findLimit key with
      | .error f => .refused "has_quota" key.storageKey (.storage f) db
      | .ok limit => ⟨.ok limit.isSome, [], db⟩ := by
  rw [hasQuota, afterChecks_of_ok hk]
  cases hfind : db.findLimit key with
  | error f => exact inTransaction_of_error (run_bind_of_error (query_of_error hfind) _)
  | ok limit => exact inTransaction_of_ok (run_bind_of_ok (query_of_ok hfind) _)

theorem getQuota_eq (hk : checkKey key = .ok ()) (db : Database) :
    getQuota key db =
      match db.findLimit key with
      | .error f => .refused "get_quota" key.storageKey (.storage f) db
      | .ok none => .refused "get_quota" key.storageKey (.quotaNotFound key) db
      | .ok (some limit) => ⟨.ok limit, [], db⟩ := by
  rw [getQuota, afterChecks_of_ok hk]
  rcases hfind : db.findLimit key with f | _ | limit
  · exact inTransaction_of_error (required_of_error _ hfind)
  · exact inTransaction_of_error (required_of_none _ hfind)
  · exact inTransaction_of_ok (required_of_some _ hfind)

/-- A limit is stored if it fits its column. -/
theorem setQuota_stored (hk : checkKey key = .ok ()) {limit : Limit} (hl : limit.Storable)
    (db : Database) :
    setQuota key limit db = ⟨.ok (), [.quotaSet key limit], db.storeLimit key limit⟩ := by
  rw [setQuota, afterChecks_of_ok hk]
  exact inTransaction_of_ok (change_of_ok (Database.upsertLimit_of_storable hl key))

/-- A limit that does not fit its column is refused. -/
theorem setQuota_refused (hk : checkKey key = .ok ()) {count : UInt64}
    (hl : columnBound ≤ count.toNat) (db : Database) :
    setQuota key (.bytes count) db
      = .refused "set_quota" key.storageKey (.limitTooLarge count) db := by
  rw [setQuota, afterChecks_of_ok hk]
  exact inTransaction_of_error (change_of_error (Database.upsertLimit_of_ge hl key))

/-- Removing an entry always succeeds, and is reported if there was one. -/
theorem removeQuota_eq (hk : checkKey key = .ok ()) (db : Database) :
    removeQuota key db =
      ⟨.ok (), if (db.quotaRow? key).isSome then [.quotaRemoved key] else [],
        db.deleteLimit key⟩ := by
  rw [removeQuota, afterChecks_of_ok hk]
  simp only [inTransaction_of_ok (deleteLimit_run key db)]
  rfl

end Quotas

end Repository

end FilterStore
