import FilterStore.Proofs.Repository.Soundness
import FilterStore.Proofs.Store.Volume

/-!
No owner stores more than the limit allows.

* **Accounts.** `Database.Accounted` is what the space check relies on: stored sizes are the lengths
  of the contents, and quota entries can be read. Every operation keeps it (`accounted_run`).
* **The check.** A favourable verdict compares the exact sum with the limit, although it is taken
  from sums in 64 bits (`le_of_spaceVerdict`).
* **One step.** After an owner's own script is stored, the owner is within the limit
  (`Writes.within_put`), and nothing else adds to the sum (`Writes.bytes_le`).
* **Every session.** `within_runSession` puts the steps together, whoever makes the requests.
-/

namespace FilterStore

open Repository

/-! ### Accounts -/

/-- What the space check relies on. -/
structure Database.Accounted (db : Database) : Prop where
  /-- The rules of the tables hold. -/
  schema : db.Schema
  /-- Sizes are the lengths of the contents. -/
  exact : ∀ r ∈ db.scripts, r.Exact
  /-- Quota entries can be read. -/
  quotas : ∀ r ∈ db.quotas, r.Sound

lemma Database.accounted_empty : Database.empty.Accounted where
  schema := Database.schema_empty
  exact _ h := nomatch h
  quotas _ h := nomatch h

namespace Operation

variable {now : Instant} {op : Operation} {db after : Database} {event : Event}
  {owner name content : String}

/-- An operation keeps the accounts, at whatever time. -/
theorem accounted_run (hdb : db.Accounted) (hfit : op.Fits) (now : Instant) :
    (op.run now db).database.Accounted := by
  rcases database_run hdb.schema hfit now with hsame | ⟨event, writes⟩
  · rw [hsame]
    exact hdb
  · refine ⟨writes.schema hdb.schema hfit, fun r hr => ?_, fun r hr => ?_⟩
    · rcases writes.scripts hdb.schema hr with hr | ⟨s, rfl, hs⟩
      · exact hdb.exact r hr
      · exact (hs.exact hdb.schema hdb.exact hfit).stored
    · rcases writes.quotas hdb.schema hr with hr | ⟨key, limit, rfl, hl⟩
      · exact hdb.quotas r hr
      · exact hl.sound

/-! ### The check -/

/-- The bytes used beside a name are the sum over the scripts of other names, or the greatest count
if that is less. -/
lemma toNat_usedBeside_eq_min (name : String) (scripts : List Script) :
    (usedBeside name scripts).toNat
      = min ((scripts.filter fun s => s.name ≠ name).map fun s => s.size.toNat).sum
          (UInt64.size - 1) := by
  rw [usedBeside, toNat_foldl_addBounded, List.map_map]
  simp [Function.comp_def]

/-- Where sizes are exact this is the sum of the lengths of the other contents. -/
lemma toNat_usedBeside (hexact : ∀ r ∈ db.scripts, r.Exact) {scripts : List Script}
    (hall : db.findAll owner = .ok scripts) (name : String) :
    (usedBeside name scripts).toNat
      = min ((db.deleteScript owner name).bytes owner) (UInt64.size - 1) := by
  have hsum := Database.sum_size_of_findAll (Database.findAll_deleteScript hall name)
    fun r hr => hexact r (Database.mem_deleteScript.mp hr).1
  rw [toNat_usedBeside_eq_min, hsum]

/-- With a favourable verdict the bytes fit beside the exact sum over the other names. -/
lemma le_of_spaceVerdict (hexact : ∀ r ∈ db.scripts, r.Exact) {size : UInt64}
    (h : spaceVerdict owner name size db = .ok ()) :
    ∃ limit, db.limitInForce owner = .ok limit ∧
      ∀ count ∈ limit.bytes?,
        (db.deleteScript owner name).bytes owner + size.toNat ≤ count.toNat := by
  obtain ⟨scripts, own, default, hall, hown, hdefault, hadmits⟩ := found_of_spaceVerdict h
  refine ⟨_, Database.limitInForce_of_found hown hdefault, fun count hcount => ?_⟩
  have heffective : effectiveLimit own default = .bytes count := by
    rw [← Limit.ofBytes?_bytes? (effectiveLimit own default), hcount]
    rfl
  have hcount63 := Database.lt_columnBound_of_effectiveLimit hown hdefault heffective
  rw [heffective, admits_iff (toNat_usedBeside hexact hall name) hcount63] at hadmits
  exact hadmits

/-! ### One step -/

@[simp] lemma replacement_owner (owner name content : String) (previous : Option Script) :
    (replacement owner name content previous).owner = owner := by
  cases previous <;> rfl

@[simp] lemma replacement_name (owner name content : String) (previous : Option Script) :
    (replacement owner name content previous).name = name := by
  cases previous <;> rfl

@[simp] lemma replacement_content (owner name content : String) (previous : Option Script) :
    (replacement owner name content previous).content = content := by
  cases previous <;> rfl

/-- After an owner's own script is stored, the owner is within the limit. -/
lemma Writes.within_put (hdb : db.Accounted) (hfit : content.utf8ByteSize < columnBound)
    (h : Writes now db (.put owner name content) event after) : after.Within owner := by
  cases h with
  | @put _ _ _ previous names verdict found =>
      obtain ⟨limit, hlimit, hle⟩ := le_of_spaceVerdict hdb.exact verdict
      have hsize : (contentSize content).toNat = content.utf8ByteSize :=
        toNat_contentSize hfit
      refine ⟨limit, hlimit, fun count hcount => ?_⟩
      have hfits := hle count hcount
      rw [hsize] at hfits
      rw [Database.bytes_store hdb.schema]
      simpa using hfits

/-- Making a script the only active one moves no bytes. -/
lemma bytes_switchOver (hdb : db.Schema) {target : Script} {current : Option Script}
    (htarget : db.findScript owner name = .ok (some target))
    (hcurrent : db.findActive owner = .ok current) (o : String) :
    (db.storeAll (switchOver now target current)).bytes o = db.bytes o := by
  obtain ⟨r, hr, hro, hrn, hrs⟩ := Database.shows_of_findScript hdb htarget
  have hone : (db.store (target.activate now)).bytes o = db.bytes o :=
    Database.bytes_store_of_shows (t := target.activate now) hdb hr hrs rfl rfl rfl o
  cases current with
  | none => exact hone
  | some other =>
      by_cases hname : other.name = target.name
      · rw [switchOver_of_eq hname]
        exact hone
      · obtain ⟨q, hq, hqo, -, hqs⟩ := Database.shows_of_findActive hdb hcurrent
        have hoff : (db.store other.deactivate).Schema :=
          hdb.store (Database.takes_deactivate hqs.storable)
        have hstays : r ∈ (db.store other.deactivate).scripts :=
          (Database.mem_store hdb).mpr
            (.inr ⟨hr, fun hkey => hname (hkey.2.symm.trans hrs.name.symm)⟩)
        rw [switchOver_of_ne hname]
        calc ((db.store other.deactivate).store (target.activate now)).bytes o
            = (db.store other.deactivate).bytes o :=
              Database.bytes_store_of_shows (t := target.activate now) hoff hstays hrs rfl rfl rfl o
          _ = db.bytes o :=
              Database.bytes_store_of_shows (t := other.deactivate) hdb hq hqs rfl rfl rfl o

/-- Only an owner's own script adds to the sum. -/
lemma Writes.bytes_le (hdb : db.Schema) (h : Writes now db op event after) (o : String) :
    after.bytes o ≤ db.bytes o ∨ ∃ name content, op = .put o name content := by
  cases h with
  | @put owner name content previous names verdict found =>
      by_cases ho : owner = o
      · subst ho
        exact .inr ⟨name, content, rfl⟩
      · left
        rw [Database.bytes_store hdb, replacement_owner, if_neg ho]
        exact Database.bytes_deleteScript_le _ _ _
  | @switchOff owner s found =>
      obtain ⟨r, hr, -, -, hrs⟩ := Database.shows_of_findActive hdb found
      have hsame : (db.store s.deactivate).bytes o = db.bytes o :=
        Database.bytes_store_of_shows (t := s.deactivate) hdb hr hrs rfl rfl rfl o
      exact .inl hsame.le
  | activate named found active => exact .inl (bytes_switchOver hdb found active o).le
  | delete found inactive => exact .inl (Database.bytes_deleteScript_le _ _ _)
  | @rename owner source target s names found free =>
      obtain ⟨r, hr, rfl, rfl, hrs⟩ := Database.shows_of_findScript hdb found
      left
      calc ((db.deleteScript r.owner r.name).store (s.renamed target)).bytes o
          = ((db.deleteScript r.owner r.name).deleteScript s.owner target).bytes o
            + (if s.owner = o then s.content.utf8ByteSize else 0) :=
            Database.bytes_store hdb.deleteScript (s.renamed target) o
        _ ≤ (db.deleteScript r.owner r.name).bytes o
            + (if s.owner = o then s.content.utf8ByteSize else 0) :=
            Nat.add_le_add_right (Database.bytes_deleteScript_le _ _ _) _
        _ = (db.deleteScript r.owner r.name).bytes o
            + (if r.owner = o then r.content.utf8ByteSize else 0) := by
            rw [hrs.owner, hrs.content]
        _ = db.bytes o := (Database.bytes_of_mem hdb hr o).symm
  | setDefaultQuota storable => exact .inl le_rfl
  | setQuota named storable => exact .inl le_rfl
  | removeDefaultQuota found => exact .inl le_rfl
  | removeQuota found => exact .inl le_rfl

/-- The operation changes a quota entry. -/
def ChangesQuota : Operation → Prop
  | .setDefaultQuota _ | .removeDefaultQuota | .setQuota _ _ | .removeQuota _ => True
  | .haveSpace _ _ _ | .put _ _ _ | .list _ | .get _ _ | .getActive _ | .getActivationDate _
  | .setActive _ _ | .delete _ _ | .rename _ _ _ | .hasDefaultQuota | .getDefaultQuota
  | .hasQuota _ | .getQuota _ => False

/-- Other operations leave the quota entries alone. -/
lemma Writes.quotas_eq (h : Writes now db op event after) :
    op.ChangesQuota ∨ after.quotas = db.quotas := by
  cases h with
  | put names verdict found => exact .inr rfl
  | switchOff found => exact .inr rfl
  | activate named found active => exact .inr (Database.quotas_storeAll _ _)
  | delete found inactive => exact .inr rfl
  | rename names found free => exact .inr rfl
  | setDefaultQuota storable => exact .inl trivial
  | setQuota named storable => exact .inl trivial
  | removeDefaultQuota found => exact .inl trivial
  | removeQuota found => exact .inl trivial

/-- After a successful put the owner is within the limit. -/
lemma within_put (hdb : db.Accounted) (hfit : content.utf8ByteSize < columnBound)
    (h : ((put owner name content).run now db).result = .ok .done) :
    ((put owner name content).run now db).database.Within owner := by
  cases hc : (put owner name content).checks with
  | error e =>
      rw [run_of_checks_error hc] at h
      cases h
  | ok u =>
      cases hv : spaceVerdict owner name (contentSize content) db with
      | error e =>
          rw [run, put_refused hc hv] at h
          cases h
      | ok u =>
          obtain ⟨previous, hfind, hput⟩ := put_stored hdb.schema hc hfit hv
          rw [run, hput]
          have hwrites : Writes now db (.put owner name content) _ _ := .put hc hv hfind
          exact hwrites.within_put hdb hfit

/-- An operation that adds to the sum of an owner is the owner's own successful put. -/
lemma put_of_bytes_lt (hdb : db.Schema) (hfit : op.Fits) {o : String}
    (h : db.bytes o < (op.run now db).database.bytes o) :
    (∃ name content, op = .put o name content) ∧ (op.run now db).result = .ok .done := by
  rcases run_cases hdb hfit now with ⟨e, -, hrun⟩ | hends
  · rw [hrun] at h
    exact absurd h (lt_irrefl _)
  · generalize op.run now db = outcome at h hends
    cases hends with
    | refused e => exact absurd h (lt_irrefl _)
    | answered a => exact absurd h (lt_irrefl _)
    | wrote writes => exact ⟨(writes.bytes_le hdb o).resolve_left (not_le.mpr h), rfl⟩

/-- An operation that leaves the limit of an owner as it is keeps the owner within it. -/
lemma within_run (hdb : db.Accounted) (hfit : op.Fits)
    (hkept : op.ChangesQuota →
      (op.run now db).database.limitInForce owner = db.limitInForce owner)
    (h : db.Within owner) : (op.run now db).database.Within owner := by
  rcases database_run hdb.schema hfit now with hsame | ⟨event, writes⟩
  · rw [hsame]
    exact h
  · generalize (op.run now db).database = after at hkept writes
    rcases writes.bytes_le hdb.schema owner with hle | ⟨name, content, rfl⟩
    · obtain ⟨limit, hlimit, hbytes⟩ := h
      have hsame : after.limitInForce owner = db.limitInForce owner :=
        writes.quotas_eq.elim hkept fun hq => Database.limitInForce_congr hq owner
      exact ⟨limit, hsame.trans hlimit, fun count hcount => hle.trans (hbytes count hcount)⟩
    · exact writes.within_put hdb hfit

end Operation

/-! ### Sessions -/

namespace Request

variable {request : Request} {db : Database} {owner : String}

/-- The request changes a quota entry. -/
def ChangesQuota : Request → Prop
  | .operation op => op.ChangesQuota
  | .statement _ | .batch _ _ | .setUp | .reopen _ => False

lemma accounted_run (hlib : request.OfLibrary) (hdb : db.Accounted) (now : Instant) :
    (request.run now db).database.Accounted := by
  cases request with
  | operation op => exact Operation.accounted_run hdb hlib now
  | setUp => exact hdb
  | reopen path => exact hdb
  | statement step => exact hlib.elim
  | batch steps final => exact hlib.elim

lemma within_run (hlib : request.OfLibrary) (hdb : db.Accounted) {now : Instant}
    (hkept : request.ChangesQuota →
      (request.run now db).database.limitInForce owner = db.limitInForce owner)
    (h : db.Within owner) : (request.run now db).database.Within owner := by
  cases request with
  | operation op => exact Operation.within_run hdb hlib hkept h
  | setUp => exact h
  | reopen path => exact h
  | statement step => exact hlib.elim
  | batch steps final => exact hlib.elim

lemma put_of_bytes_lt (hlib : request.OfLibrary) (hdb : db.Schema) {now : Instant}
    (h : db.bytes owner < (request.run now db).database.bytes owner) :
    (∃ name content, request = .operation (.put owner name content)) ∧
      (request.run now db).result = .ok (.operation .done) := by
  cases request with
  | operation op =>
      obtain ⟨⟨name, content, rfl⟩, hdone⟩ := Operation.put_of_bytes_lt hdb hlib h
      refine ⟨⟨name, content, rfl⟩, ?_⟩
      simp only [run, hdone]
      rfl
  | setUp => exact absurd h (lt_irrefl _)
  | reopen path => exact absurd h (lt_irrefl _)
  | statement step => exact hlib.elim
  | batch steps final => exact hlib.elim

end Request

/-- Each change of a quota entry in the session leaves the limit of the owner as it is. -/
def LimitKept (owner : String) : List (Instant × Request) → Database → Prop
  | [], _ => True
  | (now, request) :: rest, db =>
    (request.ChangesQuota →
      (request.run now db).database.limitInForce owner = db.limitInForce owner) ∧
      LimitKept owner rest (request.run now db).database

/-- While the limit stays as it is, an owner within it stays within it. -/
lemma within_of_limitKept {owner : String} {rest : List (Instant × Request)}
    (hlib : ∀ call ∈ rest, call.2.OfLibrary) {db : Database} (hdb : db.Accounted)
    (hkept : LimitKept owner rest db) (h : db.Within owner) : (runSession rest db).2.Within owner := by
  induction rest generalizing db with
  | nil => exact h
  | cons call rest ih =>
      have hcall := hlib call List.mem_cons_self
      exact ih (fun next hnext => hlib next (List.mem_cons_of_mem call hnext))
        (Request.accounted_run hcall hdb call.1) hkept.2 (Request.within_run hcall hdb hkept.1 h)

/-- **Quotas hold over every session**, whoever makes its requests and in whatever order they are
served. After each put that succeeds, its owner is within the limit that applies then; no other
request adds to the bytes of the owner; and an owner within the limit stays within it as long as
the limit stays as it is. -/
theorem within_runSession {session : List (Instant × Request)}
    (hlib : ∀ call ∈ session, call.2.OfLibrary) (owner : String) :
    let db := (runSession session .empty).2
    (∀ now name content, content.utf8ByteSize < columnBound →
      ((Operation.put owner name content).run now db).result = .ok .done →
        ((Operation.put owner name content).run now db).database.Within owner) ∧
    (∀ now (request : Request), request.OfLibrary →
      db.bytes owner < (request.run now db).database.bytes owner →
        (∃ name content, request = .operation (.put owner name content)) ∧
          (request.run now db).result = .ok (.operation .done)) ∧
    (∀ rest : List (Instant × Request), (∀ call ∈ rest, call.2.OfLibrary) →
      LimitKept owner rest db → db.Within owner → (runSession rest db).2.Within owner) := by
  have hdb : (runSession session .empty).2.Accounted :=
    runSession_preserves (P := Database.Accounted)
      (fun call hcall _ hdb => Request.accounted_run (hlib call hcall) hdb call.1)
      Database.accounted_empty
  refine ⟨fun now name content hfit hdone => Operation.within_put hdb hfit hdone,
    fun now request hrequest hlt => Request.put_of_bytes_lt hrequest hdb.schema hlt,
    fun rest hrest hkept hwithin => within_of_limitKept hrest hdb hkept hwithin⟩

/-- A limit of 10 bytes that two scripts exhaust, so that a third one is refused. -/
theorem within_runSession_exhausted :
    let session : List (Instant × Request) :=
      [(.epoch, .operation (.setQuota "ann" (.bytes 10)))]
    let rest : List (Instant × Request) :=
      [(.epoch, .operation (.put "ann" "day" "keep;")),
        (.epoch, .operation (.put "ann" "night" "stop;")),
        (.epoch, .operation (.put "ann" "week" "k"))]
    let db := (runSession session .empty).2
    (runSession rest db).2.Within "ann" ∧ (runSession rest db).2.bytes "ann" = 10 := by
  intro session rest db
  have hsession : ∀ call ∈ session, call.2.OfLibrary := by
    simp only [session, List.forall_mem_singleton]
    trivial
  have hday : "keep;".utf8ByteSize < columnBound := by decide +kernel
  have hnight : "stop;".utf8ByteSize < columnBound := by decide +kernel
  have hweek : "k".utf8ByteSize < columnBound := by decide +kernel
  have hrest : ∀ call ∈ rest, call.2.OfLibrary := by
    simp only [rest, List.forall_mem_cons]
    exact ⟨hday, hnight, hweek, List.forall_mem_nil _⟩
  have hkept : LimitKept "ann" rest db :=
    ⟨False.elim, False.elim, False.elim, trivial⟩
  have hlimit : db.limitInForce "ann" = .ok (.bytes 10) := by decide +kernel
  have hwithin : db.Within "ann" := ⟨_, hlimit, fun count _ => Nat.zero_le count.toNat⟩
  have hbytes : (runSession rest db).2.bytes "ann" = 10 := by decide +kernel
  exact ⟨(within_runSession hsession "ann").2.2 rest hrest hkept hwithin, hbytes⟩

end FilterStore
