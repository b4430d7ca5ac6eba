import FilterStore.Proofs.Repository.Batch
import FilterStore.Proofs.Repository.Soundness

/-!
Owners do not interfere.

* **Own and foreign rows.** `SameFor` compares two databases on what an owner may depend on: the
  owner's scripts, the owner's quota entry and the default entry. `SameBeside` compares them on what
  an owner may not touch: everything but the owner's scripts and quota entry.
* **One request.** A request of an owner answers and reports the same on databases that are the same
  for the owner, which stay so (`Request.sameFor_run`), and it leaves the rest alone
  (`Request.sameBeside_run`). This covers failures as well: a row of another owner that cannot be
  read is not noticed.
* **Sessions.** Both go over to sessions of any length (`isolated_runSession`).
-/

namespace FilterStore

/-! ### Own and foreign rows -/

namespace Database

/-- The databases hold the same scripts of the owner, the same quota entry of the owner and the same
default entry. -/
def SameFor (owner : String) : Database → Database → Prop :=
  SameRows (· = owner) fun key => key = owner ∨ key = QuotaKey.default.storageKey

/-- The databases hold the same scripts of other owners, the same quota entries of other owners and
the same default entry. -/
def SameBeside (owner : String) : Database → Database → Prop :=
  SameRows (· ≠ owner) fun key => key ≠ owner ∨ key = QuotaKey.default.storageKey

end Database

/-! ### One request -/

/-- The requests that are operations called with this owner. -/
def Request.OfOwner (owner : String) : Request → Prop
  | .operation op => op.owner? = some owner
  | .statement _ | .batch _ _ | .setUp | .reopen _ => False

/-- What the client and the log see of a response. -/
def Response.seen (response : Response) :
    Except Failure Reply × List StepResult × List Event :=
  (response.result, response.inner, response.events)

variable {owner : String} {db db₁ db₂ : Database}

lemma Operation.subject_of_owner {op : Operation} (h : op.owner? = some owner) :
    op.subject = owner := by
  rw [Operation.subject, h, Option.getD_some]

/-- The text that stands for the default entry is no owner's name, so no operation called with it
passes its checks. -/
lemma Operation.checks_of_owner_eq_default {op : Operation}
    (h : op.owner? = some QuotaKey.default.storageKey) : ∃ e, op.checks = .error e := by
  have howner : ∃ e, Repository.checkOwner "" = .error e := ⟨_, rfl⟩
  have hscript : ∀ name, ∃ e, Repository.checkScript "" name = .error e := fun _ => ⟨_, rfl⟩
  cases op with
  | put owner name content =>
      cases h
      exact hscript name
  | rename owner source target =>
      cases h
      exact hscript target
  | hasDefaultQuota => cases h
  | getDefaultQuota => cases h
  | setDefaultQuota limit => cases h
  | removeDefaultQuota => cases h
  | _ =>
      cases h
      exact howner

namespace Request

variable {request : Request}

lemma OfOwner.exists_operation (h : request.OfOwner owner) :
    ∃ op : Operation, request = .operation op ∧ op.owner? = some owner := by
  cases request with
  | operation op => exact ⟨op, rfl, h⟩
  | statement step => exact h.elim
  | batch steps final => exact h.elim
  | setUp => exact h.elim
  | reopen path => exact h.elim

/-- A request of an owner leaves the rows of others and the default entry alone. -/
theorem sameBeside_run (hown : request.OfOwner owner) (now : Instant) (hdb : db.Schema) :
    db.SameBeside owner (request.run now db).database := by
  obtain ⟨op, rfl, howner⟩ := hown.exists_operation
  have hsubject : op.subject = owner := op.subject_of_owner howner
  show db.SameBeside owner (op.run now db).database
  by_cases hdefault : owner = QuotaKey.default.storageKey
  · obtain ⟨e, hchecks⟩ := Operation.checks_of_owner_eq_default (hdefault ▸ howner)
    rw [Operation.run_of_checks_error hchecks]
    exact .refl db
  · refine op.others_run now hdb (fun hne => hne hsubject) ?_
    rintro (hne | heq)
    · exact hne hsubject
    · exact hdefault (hsubject ▸ heq)

/-- A request of an owner shows the same on databases that are the same for the owner, and they stay
the same for the owner. -/
theorem sameFor_run (hown : request.OfOwner owner) (now : Instant) (h₁ : db₁.Schema)
    (h₂ : db₂.Schema) (hsame : db₁.SameFor owner db₂) :
    (request.run now db₁).seen = (request.run now db₂).seen ∧
      (request.run now db₁).database.SameFor owner (request.run now db₂).database := by
  obtain ⟨op, rfl, howner⟩ := hown.exists_operation
  have hsubject : op.subject = owner := op.subject_of_owner howner
  obtain ⟨hresult, hevents, hafter⟩ :=
    op.same_run now h₁ h₂ hsubject (.inl hsubject) (.inr rfl) hsame
  refine ⟨?_, hafter⟩
  show ((op.run now db₁).result.map _, _, (op.run now db₁).events) = _
  rw [hresult, hevents]
  rfl

end Request

/-! ### Sessions -/

variable {session : List (Instant × Request)}

/-- A session of an owner leaves the rows of others and the default entry alone. -/
lemma sameBeside_runSession (hown : ∀ call ∈ session, call.2.OfOwner owner) (hdb : db.Schema) :
    db.SameBeside owner (runSession session db).2 := by
  have hpreserved : (runSession session db).2.Schema ∧ db.SameBeside owner (runSession session db).2 :=
    runSession_preserves (P := fun after => after.Schema ∧ db.SameBeside owner after)
      (fun call hcall _ hafter => ⟨call.2.schema_run call.1 hafter.1,
        hafter.2.trans (Request.sameBeside_run (hown call hcall) call.1 hafter.1)⟩)
      ⟨hdb, .refl db⟩
  exact hpreserved.2

/-- A session of an owner shows the same on databases that are the same for the owner, and they stay
the same for the owner. -/
lemma sameFor_runSession (hown : ∀ call ∈ session, call.2.OfOwner owner) (h₁ : db₁.Schema)
    (h₂ : db₂.Schema) (hsame : db₁.SameFor owner db₂) :
    (runSession session db₁).1.map Response.seen = (runSession session db₂).1.map Response.seen ∧
      (runSession session db₁).2.SameFor owner (runSession session db₂).2 := by
  induction session generalizing db₁ db₂ with
  | nil => exact ⟨rfl, hsame⟩
  | cons call rest ih =>
      have hfirst := hown call List.mem_cons_self
      obtain ⟨hseen, hafter⟩ := Request.sameFor_run hfirst call.1 h₁ h₂ hsame
      obtain ⟨hrest, hlast⟩ := ih (fun next hnext => hown next (List.mem_cons_of_mem call hnext))
        (call.2.schema_run call.1 h₁) (call.2.schema_run call.1 h₂) hafter
      exact ⟨congrArg₂ List.cons hseen hrest, hlast⟩

/-- **Owners do not interfere**: operations called with one owner, at the same times, answer and
report the same on any two databases that agree on the owner's scripts, the owner's quota entry and
the default entry, however else they differ, and the databases agree on all that afterwards. Neither
run touches a script of another owner, the quota entry of another owner or the default entry. -/
theorem isolated_runSession (hown : ∀ call ∈ session, call.2.OfOwner owner) (h₁ : db₁.Schema)
    (h₂ : db₂.Schema) (hsame : db₁.SameFor owner db₂) :
    (runSession session db₁).1.map Response.seen = (runSession session db₂).1.map Response.seen ∧
      (runSession session db₁).2.SameFor owner (runSession session db₂).2 ∧
      db₁.SameBeside owner (runSession session db₁).2 ∧
      db₂.SameBeside owner (runSession session db₂).2 := by
  obtain ⟨hseen, hafter⟩ := sameFor_runSession hown h₁ h₂ hsame
  exact ⟨hseen, hafter, sameBeside_runSession hown h₁, sameBeside_runSession hown h₂⟩

/-- A limit, a refused content and an activation beside another owner's script that cannot be read
and a limit that cannot be read either. -/
theorem isolated_runSession_unreadable :
    let session : List (Instant × Request) :=
      [(.epoch, .operation (.setQuota "ann" (.bytes 6))),
        (.epoch, .operation (.put "ann" "night" "stop;")),
        (.epoch, .operation (.setActive "ann" "day")),
        (.epoch, .operation (.list "ann"))]
    let row : ScriptRow := ⟨"ann", "day", "keep;", 5, 0, none⟩
    let db₁ : Database := ⟨[row], []⟩
    let db₂ : Database := ⟨[row, ⟨"bob", "day", "keep;", -1, 1, some "now"⟩], [⟨"bob", some (-1)⟩]⟩
    db₁.Schema ∧ db₂.Schema ∧ db₁.SameFor "ann" db₂ ∧
      (runSession session db₁).1.map Response.seen =
        (runSession session db₂).1.map Response.seen ∧
      (runSession session db₂).1.map Response.result =
        [.ok (.operation .done), .error (.quotaExceeded "ann" 5 5 6), .ok (.operation .done),
          .ok (.operation (.listing [⟨"day", true⟩]))] := by
  intro session row db₁ db₂
  have hown : ∀ call ∈ session, call.2.OfOwner "ann" := by
    simp only [session, List.forall_mem_cons]
    exact ⟨rfl, rfl, rfl, rfl, List.forall_mem_nil _⟩
  have h₁ : db₁.Schema := by decide +kernel
  have h₂ : db₂.Schema := by decide +kernel
  have hsame : db₁.SameFor "ann" db₂ := by
    constructor
    · intro r (hr : r.owner = "ann")
      simp only [db₁, db₂, List.mem_cons, List.not_mem_nil, or_false]
      refine ⟨.inl, ?_⟩
      rintro (rfl | rfl)
      · rfl
      · exact absurd hr (by decide)
    · intro r hr
      simp only [db₁, db₂, List.mem_cons, List.not_mem_nil, or_false, false_iff]
      rintro rfl
      exact absurd hr (by decide)
  have hresults : (runSession session db₂).1.map Response.result =
      [.ok (.operation .done), .error (.quotaExceeded "ann" 5 5 6), .ok (.operation .done),
        .ok (.operation (.listing [⟨"day", true⟩]))] := by decide +kernel
  exact ⟨h₁, h₂, hsame, (isolated_runSession hown h₁ h₂ hsame).1, hresults⟩

end FilterStore
