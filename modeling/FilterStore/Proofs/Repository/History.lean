import FilterStore.Proofs.Repository.Refinement

/-!
The active script as the history of a session tells it.

* **Histories.** A `History` lists operations that succeeded, the earliest first; `accomplished` is
  the history of a session. `Operation.carry` is what becomes of a script's name in one operation,
  and `History.follow` what becomes of it in a history: renaming moves the script, deleting loses it.
* **Marks in a history.** `LastChoice` is the last activation of an owner together with what came
  after it, and `LastStored` the last content that was stored for a script, whatever the script was
  called then.
* **Records.** `Records` says that a machine is what a history tells: every content is the last one
  stored, and the active script is the one chosen last, under its present name and with the date of
  that choice. What an operation does to the shelves is listed in `Machine.Goes`, and each of these
  steps keeps the record (`Records.step`).
* **Sessions.** By the refinement the record holds after every session of the library
  (`records_runSession`), so the last activation decides what is answered as the active script
  (`active_runSession`).
-/

namespace FilterStore

/-! ### Histories -/

/-- The name, after an operation that succeeded, of the script of an owner that had this name before;
nothing if the script was deleted. -/
def Operation.carry (owner name : String) : Operation → Option String
  | .rename o source target => if o = owner ∧ source = name then some target else some name
  | .delete o n => if o = owner ∧ n = name then none else some name
  | _ => some name

/-- Operations that succeeded, in order, each with its time. -/
abbrev History := List (Instant × Operation)

namespace History

/-- The name, after a history, of the script of an owner that had this name before; nothing if the
script was deleted. -/
def follow (owner name : String) (history : History) : Option String :=
  history.foldlM (fun name entry => entry.2.carry owner name) name

/-- The owner made no choice of the active script. -/
def Unchosen (owner : String) (history : History) : Prop :=
  ∀ now name, (now, .setActive owner name) ∉ history

/-- The last choice of the owner was to activate this name at this time; `later` is what came after
it. -/
def LastChoice (owner name : String) (now : Instant) (later history : History) : Prop :=
  (∃ before, history = before ++ (now, .setActive owner name) :: later) ∧ Unchosen owner later

/-- The content is the last one stored for the script of the owner that now has this name: it was
stored under a name that led to this one, and none was stored for the script on the way. -/
def LastStored (owner name content : String) (history : History) : Prop :=
  ∃ before now former later, history = before ++ (now, .put owner former content) :: later ∧
    follow owner former later = some name ∧
    ∀ first time called new rest, later = first ++ (time, .put owner called new) :: rest →
      follow owner former first ≠ some called

variable {owner name former content : String} {history later : History} {entry : Instant × Operation}

lemma follow_nil (owner name : String) : follow owner name [] = some name :=
  rfl

lemma follow_concat (owner name : String) (history : History) (entry : Instant × Operation) :
    follow owner name (history ++ [entry]) =
      (follow owner name history).bind fun n => entry.2.carry owner n := by
  simp only [follow, List.foldlM_append, List.foldlM_cons, List.foldlM_nil, bind_pure]
  rfl

/-- An entry of a history that ends with an entry is this last one or stands before it. -/
lemma concat_eq_append_cons {before : History} {e : Instant × Operation}
    (h : history ++ [entry] = before ++ e :: later) :
    (later = [] ∧ e = entry ∧ before = history) ∨
      ∃ rest, later = rest ++ [entry] ∧ history = before ++ e :: rest := by
  rcases List.eq_nil_or_concat later with rfl | ⟨rest, last, rfl⟩
  · obtain ⟨hbefore, hentry⟩ := List.append_inj' h rfl
    exact .inl ⟨rfl, (List.singleton_inj.mp hentry).symm, hbefore.symm⟩
  · rw [List.concat_eq_append, ← List.cons_append, ← List.append_assoc] at h
    obtain ⟨hhistory, hentry⟩ := List.append_inj' h rfl
    rw [List.concat_eq_append, ← List.singleton_inj.mp hentry]
    exact .inr ⟨rest, rfl, hhistory⟩

/-- A further entry that is no choice of the owner leaves the last choice what it is. -/
lemma LastChoice.of_concat {now : Instant} (h : LastChoice owner name now later (history ++ [entry])) :
    (later = [] ∧ entry = (now, .setActive owner name)) ∨
      ∃ rest, later = rest ++ [entry] ∧ LastChoice owner name now rest history ∧
        ∀ time chosen, entry ≠ (time, .setActive owner chosen) := by
  obtain ⟨⟨before, hbefore⟩, hunchosen⟩ := h
  rcases concat_eq_append_cons hbefore with ⟨rfl, he, -⟩ | ⟨rest, rfl, hrest⟩
  · exact .inl ⟨rfl, he.symm⟩
  · refine .inr ⟨rest, rfl, ⟨⟨before, hrest⟩, fun time chosen hmem => ?_⟩, fun time chosen he => ?_⟩
    · exact hunchosen time chosen (List.mem_append_left _ hmem)
    · exact hunchosen time chosen (he ▸ List.mem_append_right _ (List.mem_singleton_self _))

/-- A content that was just stored is the last one. -/
lemma lastStored_put (owner name content : String) (history : History) (now : Instant) :
    LastStored owner name content (history ++ [(now, .put owner name content)]) := by
  refine ⟨history, now, name, [], rfl, follow_nil owner name, fun first time called new rest h => ?_⟩
  exact absurd h (List.append_ne_nil_of_right_ne_nil first (List.cons_ne_nil _ rest)).symm

/-- What was stored last goes with the script, as long as nothing else is stored for it. -/
lemma LastStored.concat (h : LastStored owner former content history)
    (hcarry : entry.2.carry owner former = some name)
    (hput : ∀ new, entry.2 ≠ .put owner former new) :
    LastStored owner name content (history ++ [entry]) := by
  obtain ⟨before, now, earlier, later, rfl, hfollow, hlast⟩ := h
  refine ⟨before, now, earlier, later ++ [entry], ?_, ?_, ?_⟩
  · rw [List.append_assoc, List.cons_append]
  · rw [follow_concat, hfollow, Option.bind_some, hcarry]
  · intro passed time called new rest hsplit hpassed
    rcases concat_eq_append_cons hsplit with ⟨rfl, he, rfl⟩ | ⟨more, rfl, hmore⟩
    · rw [hfollow] at hpassed
      cases hpassed
      exact hput new (congrArg Prod.snd he).symm
    · exact hlast passed time called new more hmore hpassed

end History

/-! ### Steps of the machine -/

/-- The operation neither writes scripts nor chooses one. -/
def Operation.KeepsScripts : Operation → Prop
  | .put _ _ _ | .setActive _ _ | .delete _ _ | .rename _ _ _ => False
  | _ => True

lemma Operation.KeepsScripts.carry {op : Operation} (h : op.KeepsScripts) (owner name : String) :
    op.carry owner name = some name := by
  cases op with
  | delete o n => exact h.elim
  | rename o source target => exact h.elim
  | _ => rfl

/-- A name without a date is not the active one. -/
lemma Shelf.ne_of_dateOf_eq_none {shelf : Shelf} {name : String} (h : shelf.dateOf name = none)
    {p : String × Instant} (hp : shelf.active = some p) : p.1 ≠ name := by
  rintro rfl
  rw [Shelf.dateOf_eq_some_iff.mpr hp] at h
  cases h

namespace Machine

/-- What an operation that succeeds does to the shelves. -/
inductive Goes (now : Instant) (m : Machine) : Operation → Machine → Prop
  /-- A content is put on a shelf. -/
  | put (owner name content : String) :
      Goes now m (.put owner name content)
        (m.withShelf owner ((m.shelf owner).put name content))
  /-- The pair is taken away. -/
  | switchOff (owner : String) :
      Goes now m (.setActive owner "") (m.withShelf owner (m.shelf owner).switchOff)
  /-- The pair is set. -/
  | activate {owner name : String} (named : name ≠ "") :
      Goes now m (.setActive owner name) (m.withShelf owner ((m.shelf owner).activate name now))
  /-- A name that is not the active one is removed. -/
  | delete {owner name : String} (inactive : (m.shelf owner).dateOf name = none) :
      Goes now m (.delete owner name) (m.withShelf owner ((m.shelf owner).remove name))
  /-- A content moves. -/
  | rename {owner source content : String} (target : String)
      (held : (m.shelf owner).contents.lookup source = some content) :
      Goes now m (.rename owner source target)
        (m.withShelf owner ((m.shelf owner).move source target content))
  /-- All shelves stay. -/
  | keep {op : Operation} {after : Machine} (keeps : op.KeepsScripts)
      (same : after.shelf = m.shelf) : Goes now m op after

variable {now : Instant} {m after : Machine} {op : Operation} {answer : Answer}
  {owner name content : String}

/-- Two steps succeed only if the first one does, and the second one after it. -/
lemma exists_of_bind {α β : Type} {x : Except Failure α} {f : α → Except Failure β} {b : β}
    (h : x >>= f = .ok b) : ∃ a, x = .ok a ∧ f a = .ok b := by
  cases x with
  | error e => cases h
  | ok a => exact ⟨a, rfl, h⟩

lemma shelf_setLimit {key : QuotaKey} {limit : Limit}
    (h : m.setLimit key limit = .ok (answer, after)) : after.shelf = m.shelf := by
  cases limit with
  | unlimited =>
      cases h
      rfl
  | bytes count =>
      rw [setLimit] at h
      split_ifs at h
      cases h
      rfl

lemma shelf_getLimit {key : QuotaKey} (h : m.getLimit key = .ok (answer, after)) :
    after.shelf = m.shelf := by
  rw [getLimit] at h
  split at h
  · cases h
  · cases h
    rfl

/-- An operation that neither writes scripts nor chooses one leaves all shelves as they are. -/
lemma shelf_of_keepsScripts (h : m.act now op = .ok (answer, after)) (hop : op.KeepsScripts) :
    after.shelf = m.shelf := by
  cases op with
  | put owner name content => exact hop.elim
  | setActive owner name => exact hop.elim
  | delete owner name => exact hop.elim
  | rename owner source target => exact hop.elim
  | haveSpace owner name size =>
      obtain ⟨-, -, hdone⟩ := exists_of_bind h
      cases hdone
      rfl
  | get owner name =>
      rw [act] at h
      split at h
      · cases h
      · cases h
        rfl
  | getActive owner =>
      rw [act] at h
      split at h
      · cases h
      · cases h
        rfl
  | getActivationDate owner =>
      rw [act] at h
      split at h
      · cases h
      · cases h
        rfl
  | getDefaultQuota => exact shelf_getLimit h
  | getQuota owner => exact shelf_getLimit h
  | setDefaultQuota limit => exact shelf_setLimit h
  | setQuota owner limit => exact shelf_setLimit h
  | _ =>
      cases h
      rfl

/-- An operation on good names that succeeds takes one of the steps. -/
lemma goes_of_act (h : m.act now op = .ok (answer, after)) : Goes now m op after := by
  cases op with
  | put owner name content =>
      obtain ⟨-, -, hdone⟩ := exists_of_bind h
      cases hdone
      exact .put owner name content
  | setActive owner name =>
      rw [act] at h
      split_ifs at h with hname
      · cases h
        rw [hname]
        exact .switchOff owner
      · split at h
        · cases h
        · cases h
          exact .activate hname
  | delete owner name =>
      rw [act] at h
      split at h
      · cases h
      · split at h
        · cases h
        · next hdate =>
            cases h
            exact .delete hdate
  | rename owner source target =>
      rw [act] at h
      split at h
      · cases h
      · next hsource =>
          split at h
          · cases h
          · cases h
            exact .rename target hsource
  | _ => exact .keep trivial (shelf_of_keepsScripts h trivial)

/-- An operation that succeeds passed its name checks and took one of the steps. -/
theorem goes_of_perform (h : m.perform now op = .ok (answer, after)) :
    op.checks = .ok () ∧ Goes now m op after := by
  obtain ⟨u, hc, hact⟩ := exists_of_bind h
  exact ⟨hc, goes_of_act hact⟩

/-- What is on a shelf after one was changed is on the changed shelf, or on another one as before. -/
lemma lookup_withShelf {o : String} {shelf : Shelf}
    (h : ((m.withShelf o shelf).shelf owner).contents.lookup name = some content) :
    (owner = o ∧ shelf.contents.lookup name = some content) ∨
      (owner ≠ o ∧ (m.shelf owner).contents.lookup name = some content) := by
  by_cases ho : owner = o
  · subst ho
    rw [withShelf_self] at h
    exact .inl ⟨rfl, h⟩
  · rw [withShelf_of_ne m ho] at h
    exact .inr ⟨ho, h⟩

/-- A content after a step was just stored, or belongs to a script that was there before and for
which nothing was stored in this step. -/
theorem Goes.contents (h : Goes now m op after)
    (hlookup : (after.shelf owner).contents.lookup name = some content) :
    op = .put owner name content ∨
      ∃ former, (m.shelf owner).contents.lookup former = some content ∧
        op.carry owner former = some name ∧ ∀ new, op ≠ .put owner former new := by
  cases h with
  | put o n c =>
      rcases lookup_withShelf hlookup with ⟨rfl, hlookup⟩ | ⟨ho, hlookup⟩
      · by_cases hn : name = n
        · subst hn
          rw [Shelf.put, Finmap.lookup_insert] at hlookup
          cases hlookup
          exact .inl rfl
        · rw [Shelf.put, Finmap.lookup_insert_of_ne _ hn] at hlookup
          exact .inr ⟨name, hlookup, rfl, fun new heq => hn (Operation.put.inj heq).2.1.symm⟩
      · exact .inr ⟨name, hlookup, rfl, fun new heq => ho (Operation.put.inj heq).1.symm⟩
  | switchOff o =>
      refine .inr ⟨name, ?_, rfl, fun new heq => ?_⟩
      · rcases lookup_withShelf hlookup with ⟨rfl, hlookup⟩ | ⟨-, hlookup⟩
        · exact hlookup
        · exact hlookup
      · cases heq
  | @activate o n named =>
      refine .inr ⟨name, ?_, rfl, fun new heq => ?_⟩
      · rcases lookup_withShelf hlookup with ⟨rfl, hlookup⟩ | ⟨-, hlookup⟩
        · exact hlookup
        · exact hlookup
      · cases heq
  | @delete o n inactive =>
      have hput : ∀ former new, Operation.delete o n ≠ .put owner former new := by
        intro former new heq
        cases heq
      rcases lookup_withShelf hlookup with ⟨rfl, hlookup⟩ | ⟨ho, hlookup⟩
      · by_cases hn : name = n
        · rw [hn, Shelf.remove, Finmap.lookup_erase] at hlookup
          cases hlookup
        · rw [Shelf.remove, Finmap.lookup_erase_ne hn] at hlookup
          exact .inr ⟨name, hlookup, if_neg fun hkey => hn hkey.2.symm, hput name⟩
      · exact .inr ⟨name, hlookup, if_neg fun hkey => ho hkey.1.symm, hput name⟩
  | @rename o source c target held =>
      have hput : ∀ former new, Operation.rename o source target ≠ .put owner former new := by
        intro former new heq
        cases heq
      rcases lookup_withShelf hlookup with ⟨rfl, hlookup⟩ | ⟨ho, hlookup⟩
      · rw [Shelf.move] at hlookup
        by_cases ht : name = target
        · subst ht
          rw [Finmap.lookup_insert] at hlookup
          cases hlookup
          exact .inr ⟨source, held, if_pos ⟨rfl, rfl⟩, hput source⟩
        · rw [Finmap.lookup_insert_of_ne _ ht] at hlookup
          by_cases hs : name = source
          · rw [hs, Finmap.lookup_erase] at hlookup
            cases hlookup
          · rw [Finmap.lookup_erase_ne hs] at hlookup
            exact .inr ⟨name, hlookup, if_neg fun hkey => hs hkey.2.symm, hput name⟩
      · exact .inr ⟨name, hlookup, if_neg fun hkey => ho hkey.1.symm, hput name⟩
  | keep keeps same =>
      rw [same] at hlookup
      refine .inr ⟨name, hlookup, keeps.carry owner name, ?_⟩
      rintro new rfl
      exact keeps

/-- The active script is not deleted. -/
lemma Goes.carry_active (h : Goes now m op after) {p : String × Instant}
    (hactive : (m.shelf owner).active = some p) : ∃ next, op.carry owner p.1 = some next := by
  cases h with
  | @delete o n inactive =>
      refine ⟨p.1, if_neg ?_⟩
      rintro ⟨rfl, hname⟩
      exact Shelf.ne_of_dateOf_eq_none inactive hactive hname.symm
  | @rename o source c target held =>
      rw [Operation.carry]
      split_ifs
      · exact ⟨target, rfl⟩
      · exact ⟨p.1, rfl⟩
  | keep keeps same => exact ⟨p.1, keeps.carry owner p.1⟩
  | put o n c => exact ⟨p.1, rfl⟩
  | switchOff o => exact ⟨p.1, rfl⟩
  | activate named => exact ⟨p.1, rfl⟩

/-- A choice of the owner decides what is active. -/
theorem Goes.active_setActive (h : Goes now m (.setActive owner name) after) :
    (after.shelf owner).active = if name = "" then none else some (name, now) := by
  cases h with
  | switchOff => rw [withShelf_self, if_pos rfl, Shelf.switchOff]
  | activate named => rw [withShelf_self, if_neg named, Shelf.activate]
  | keep keeps same => exact keeps.elim

/-- A pair whose name is not changed is the same pair. -/
lemma bind_carry_of_eq {active : Option (String × Instant)}
    (h : ∀ p ∈ active, op.carry owner p.1 = some p.1) :
    (active.bind fun p => (op.carry owner p.1).map fun n => (n, p.2)) = active := by
  cases active with
  | none => rfl
  | some p => rw [Option.bind_some, h p rfl, Option.map_some]

/-- Any other step takes the active script along with its date. -/
theorem Goes.active_of_ne (h : Goes now m op after) (hop : ∀ chosen, op ≠ .setActive owner chosen) :
    (after.shelf owner).active =
      (m.shelf owner).active.bind fun p => (op.carry owner p.1).map fun n => (n, p.2) := by
  cases h with
  | put o n c =>
      rw [bind_carry_of_eq fun _ _ => rfl]
      by_cases ho : owner = o
      · subst ho
        rw [withShelf_self, Shelf.put]
      · rw [withShelf_of_ne m ho]
  | switchOff o =>
      have ho : owner ≠ o := fun heq => hop "" (heq ▸ rfl)
      rw [bind_carry_of_eq fun _ _ => rfl, withShelf_of_ne m ho]
  | @activate o n named =>
      have ho : owner ≠ o := fun heq => hop n (heq ▸ rfl)
      rw [bind_carry_of_eq fun _ _ => rfl, withShelf_of_ne m ho]
  | @delete o n inactive =>
      by_cases ho : owner = o
      · subst ho
        rw [withShelf_self, Shelf.remove, bind_carry_of_eq]
        intro p hp
        exact if_neg fun hkey => Shelf.ne_of_dateOf_eq_none inactive hp hkey.2.symm
      · rw [withShelf_of_ne m ho, bind_carry_of_eq]
        intro p _
        exact if_neg fun hkey => ho hkey.1.symm
  | @rename o source c target held =>
      by_cases ho : owner = o
      · subst ho
        rw [withShelf_self, Shelf.move]
        cases hactive : (m.shelf owner).active with
        | none => rfl
        | some p =>
            by_cases hs : p.1 = source
            · simp [Operation.carry, hs]
            · simp [Operation.carry, hs, Ne.symm hs]
      · rw [withShelf_of_ne m ho, bind_carry_of_eq]
        intro p _
        exact if_neg fun hkey => ho hkey.1.symm
  | keep keeps same =>
      rw [same, bind_carry_of_eq]
      intro p _
      exact keeps.carry owner p.1

end Machine

/-! ### Records -/

namespace History

/-- A machine is what a history tells. -/
structure Records (history : History) (m : Machine) : Prop where
  /-- What succeeded passed its name checks. -/
  checked : ∀ entry ∈ history, entry.2.checks = .ok ()
  /-- Every content is the last one stored. -/
  stored : ∀ owner name content, (m.shelf owner).contents.lookup name = some content →
    LastStored owner name content history
  /-- Without a choice there is no active script. -/
  unchosen : ∀ owner, Unchosen owner history → (m.shelf owner).active = none
  /-- If the last choice was to have none, there is none. -/
  off : ∀ owner now later, LastChoice owner "" now later history → (m.shelf owner).active = none
  /-- Otherwise the active script is the one chosen last. -/
  chosen : ∀ owner name now later, LastChoice owner name now later history → name ≠ "" →
    ∃ present, follow owner name later = some present ∧
      (m.shelf owner).active = some (present, now)

lemma records_start : Records [] .start where
  checked _ h := absurd h List.not_mem_nil
  stored owner name content h := by
    rw [Machine.start, Shelf.empty, Finmap.lookup_empty] at h
    cases h
  unchosen _ _ := rfl
  off _ _ _ h := by
    obtain ⟨⟨before, hbefore⟩, -⟩ := h
    exact absurd hbefore.symm (List.append_ne_nil_of_right_ne_nil before (List.cons_ne_nil _ _))
  chosen _ _ _ _ h _ := by
    obtain ⟨⟨before, hbefore⟩, -⟩ := h
    exact absurd hbefore.symm (List.append_ne_nil_of_right_ne_nil before (List.cons_ne_nil _ _))

variable {history : History} {m after : Machine} {now : Instant} {op : Operation}

/-- An operation that succeeds goes on record. -/
theorem Records.step (h : Records history m) (hc : op.checks = .ok ())
    (hgoes : m.Goes now op after) : Records (history ++ [(now, op)]) after where
  checked entry hentry := by
    rcases List.mem_append.mp hentry with hentry | hentry
    · exact h.checked entry hentry
    · rw [List.mem_singleton.mp hentry]
      exact hc
  stored owner name content hlookup := by
    rcases hgoes.contents hlookup with rfl | ⟨former, hformer, hcarry, hput⟩
    · exact lastStored_put owner name content history now
    · exact (h.stored owner former content hformer).concat hcarry hput
  unchosen owner hunchosen := by
    have hbefore : Unchosen owner history := fun time name hmem =>
      hunchosen time name (List.mem_append_left _ hmem)
    have hop : ∀ chosen, op ≠ .setActive owner chosen := by
      rintro chosen rfl
      exact hunchosen now chosen (List.mem_append_right _ (List.mem_singleton_self _))
    rw [hgoes.active_of_ne hop, h.unchosen owner hbefore, Option.bind_none]
  off owner time later hlast := by
    rcases hlast.of_concat with ⟨rfl, hentry⟩ | ⟨rest, rfl, hrest, hop⟩
    · cases hentry
      rw [hgoes.active_setActive, if_pos rfl]
    · have hop : ∀ chosen, op ≠ .setActive owner chosen := fun chosen heq =>
        hop now chosen (heq ▸ rfl)
      rw [hgoes.active_of_ne hop, h.off owner time rest hrest, Option.bind_none]
  chosen owner name time later hlast hname := by
    rcases hlast.of_concat with ⟨rfl, hentry⟩ | ⟨rest, rfl, hrest, hop⟩
    · cases hentry
      refine ⟨name, follow_nil owner name, ?_⟩
      rw [hgoes.active_setActive, if_neg hname]
    · have hop : ∀ chosen, op ≠ .setActive owner chosen := fun chosen heq =>
        hop now chosen (heq ▸ rfl)
      obtain ⟨present, hfollow, hactive⟩ := h.chosen owner name time rest hrest hname
      -- the active script is not deleted, so it has a name afterwards
      obtain ⟨next, hnext⟩ := hgoes.carry_active hactive
      refine ⟨next, ?_, ?_⟩
      · rw [follow_concat, hfollow, Option.bind_some]
        exact hnext
      · rw [hgoes.active_of_ne hop, hactive, Option.bind_some, hnext, Option.map_some]

/-! ### Sessions -/

/-- The entry that a call makes in the history of its session: its operation, if it succeeded. -/
def noted? (call : Instant × Request) (response : Response) : Option (Instant × Operation) :=
  match call.2, response.result with
  | .operation op, .ok _ => some (call.1, op)
  | _, _ => none

/-- The history of a session: the operations that succeeded. -/
def accomplished (session : List (Instant × Request)) (responses : List Response) : History :=
  (session.zip responses).filterMap fun call => noted? call.1 call.2

lemma accomplished_cons (call : Instant × Request) (response : Response)
    (session : List (Instant × Request)) (responses : List Response) :
    accomplished (call :: session) (response :: responses) =
      (noted? call response).toList ++ accomplished session responses := by
  rw [accomplished, List.zip_cons_cons, List.filterMap_cons]
  cases noted? call response <;> rfl

variable {db : Database} {session : List (Instant × Request)}

/-- A call of the library goes on record if it succeeds. -/
lemma records_run {call : Instant × Request} (hnow : call.1.HasPlainYear)
    (hlib : call.2.OfLibrary) (hrep : Represents db m) (h : Records history m) :
    ∃ after, Represents (call.2.run call.1 db).database after ∧
      Records (history ++ (noted? call (call.2.run call.1 db)).toList) after := by
  obtain ⟨now, request⟩ := call
  cases request with
  | operation op =>
      have hstep := Operation.refines_run hrep hnow hlib
      cases hperform : m.perform now op with
      | error e =>
          rw [hperform] at hstep
          obtain ⟨hresult, hafter⟩ := hstep
          refine ⟨m, hafter, ?_⟩
          simpa only [Request.run, noted?, hresult, Except.map, Option.toList_none,
            List.append_nil] using h
      | ok done =>
          obtain ⟨answer, after⟩ := done
          rw [hperform] at hstep
          obtain ⟨hresult, hafter⟩ := hstep
          obtain ⟨hc, hgoes⟩ := Machine.goes_of_perform hperform
          refine ⟨after, hafter, ?_⟩
          simpa only [Request.run, noted?, hresult, Except.map, Option.toList_some]
            using h.step hc hgoes
  | setUp => exact ⟨m, hrep, (List.append_nil history).symm ▸ h⟩
  | reopen path => exact ⟨m, hrep, (List.append_nil history).symm ▸ h⟩
  | statement step => exact hlib.elim
  | batch steps final => exact hlib.elim

/-- A session of the library goes on record. -/
theorem records_runSession (hlib : ∀ call ∈ session, call.1.HasPlainYear ∧ call.2.OfLibrary)
    (hrep : Represents db m) (h : Records history m) :
    ∃ after, Represents (runSession session db).2 after ∧
      Records (history ++ accomplished session (runSession session db).1) after := by
  induction session generalizing db m history with
  | nil => exact ⟨m, hrep, (List.append_nil history).symm ▸ h⟩
  | cons call rest ih =>
      obtain ⟨hnow, hrequest⟩ := hlib call List.mem_cons_self
      obtain ⟨middle, hmiddle, hrecords⟩ := records_run hnow hrequest hrep h
      obtain ⟨after, hafter, hall⟩ :=
        ih (fun next hnext => hlib next (List.mem_cons_of_mem call hnext)) hmiddle hrecords
      refine ⟨after, hafter, ?_⟩
      have hsplit : (runSession (call :: rest) db).1 = call.2.run call.1 db ::
          (runSession rest (call.2.run call.1 db).database).1 := rfl
      rwa [hsplit, accomplished_cons, ← List.append_assoc]

end History

/-! ### The active script -/

open History Repository

/-- Without an active script both questions about it find none. -/
lemma results_of_active_none {db : Database} {m : Machine} {owner : String}
    (hrep : Represents db m) (h : (m.shelf owner).active = none) :
    (getActive owner db).result = (checkOwner owner).bind (fun _ => .error (.noActiveScript owner)) ∧
      (getActivationDate owner db).result =
        (checkOwner owner).bind fun _ => .error (.noActiveScript owner) := by
  rw [getActive, getActivationDate, Outcome.map, Outcome.andThen]
  cases ho : checkOwner owner with
  | error e =>
      rw [active, afterChecks_of_error ho]
      exact ⟨rfl, rfl⟩
  | ok u =>
      rw [active_eq ho, hrep.findActive, h]
      exact ⟨rfl, rfl⟩

/-- An active script is answered with its name, its content and its date. -/
lemma result_active_of_some {db : Database} {m : Machine} {owner name content : String}
    {date : Instant} (hrep : Represents db m) (ho : checkOwner owner = .ok ())
    (hactive : (m.shelf owner).active = some (name, date))
    (hlookup : (m.shelf owner).contents.lookup name = some content) :
    (active owner db).result =
      .ok ⟨owner, name, content, contentSize content, true, some date⟩ := by
  have hdate : (m.shelf owner).dateOf name = some date := Shelf.dateOf_eq_some_iff.mpr hactive
  have hcontent : (m.shelf owner).content name = content := by
    rw [Shelf.content, hlookup, Option.getD_some]
  rw [active_eq ho, hrep.findActive, hactive, Option.map_some, hcontent, Shelf.script, hdate,
    Option.isSome_some]

/-- **The history decides the activation**: in every session of the library from the empty database
on, with calls at times in the years 0 to 9999, an owner who never activated a script, or whose last
activation that succeeded was of no script, has no active script. Otherwise the active script is the
one named in that activation, under the name to which all later renamings led it; its content is the
last one stored for this script, and its date is the time of that activation. A text that is no
owner's name is refused as such. -/
theorem active_runSession {session : List (Instant × Request)}
    (hlib : ∀ call ∈ session, call.1.HasPlainYear ∧ call.2.OfLibrary) (owner : String) :
    let db := (runSession session .empty).2
    let history := accomplished session (runSession session .empty).1
    (Unchosen owner history ∨ (∃ now later, LastChoice owner "" now later history) →
        (getActive owner db).result =
            (checkOwner owner).bind (fun _ => .error (.noActiveScript owner)) ∧
          (getActivationDate owner db).result =
            (checkOwner owner).bind fun _ => .error (.noActiveScript owner)) ∧
      ∀ name now later, LastChoice owner name now later history → name ≠ "" →
        ∃ present content, follow owner name later = some present ∧
          LastStored owner present content history ∧
          (active owner db).result =
            .ok ⟨owner, present, content, contentSize content, true, some now⟩ ∧
          (getActive owner db).result = .ok content ∧
          (getActivationDate owner db).result = .ok now := by
  intro db history
  obtain ⟨m, hrep, hrecords⟩ := records_runSession hlib .start records_start
  have hrecords : Records history m := hrecords
  refine ⟨fun hnone => ?_, fun name now later hlast hname => ?_⟩
  · have hactive : (m.shelf owner).active = none := by
      rcases hnone with hunchosen | ⟨now, later, hoff⟩
      · exact hrecords.unchosen owner hunchosen
      · exact hrecords.off owner now later hoff
    exact results_of_active_none hrep hactive
  · obtain ⟨present, hfollow, hactive⟩ := hrecords.chosen owner name now later hlast hname
    obtain ⟨content, hlookup⟩ := Finmap.mem_iff.mp ((hrep.sound owner).held _ hactive)
    have ho : checkOwner owner = .ok () := by
      obtain ⟨⟨before, hbefore⟩, -⟩ := hlast
      have hmem : (now, Operation.setActive owner name) ∈ history := by
        rw [hbefore]
        exact List.mem_append_right _ List.mem_cons_self
      exact hrecords.checked _ hmem
    have hresult := result_active_of_some hrep ho hactive hlookup
    refine ⟨present, content, hfollow, hrecords.stored owner present content hlookup, hresult, ?_, ?_⟩
    · rw [getActive, Outcome.map, hresult]
      rfl
    · rw [getActivationDate, Outcome.andThen, hresult]
      rfl

/-- The active script is renamed, its old name is used for another script, it gets a new content, and
neither deleting it nor activating an unknown name nor another owner's choice changes the answer. -/
theorem active_runSession_renamed :
    let session : List (Instant × Request) :=
      [(.epoch, .operation (.put "ann" "day" "keep;")),
        (.epoch, .operation (.setActive "ann" "day")),
        (.epoch, .operation (.rename "ann" "day" "night")),
        (.epoch, .operation (.put "ann" "day" "stop;")),
        (.epoch, .operation (.put "ann" "night" "discard;")),
        (.epoch, .operation (.put "bob" "day" "keep;")),
        (.epoch, .operation (.setActive "bob" "day")),
        (.epoch, .operation (.delete "ann" "night")),
        (.epoch, .operation (.setActive "ann" "week"))]
    let later : History :=
      [(.epoch, .rename "ann" "day" "night"), (.epoch, .put "ann" "day" "stop;"),
        (.epoch, .put "ann" "night" "discard;"), (.epoch, .put "bob" "day" "keep;"),
        (.epoch, .setActive "bob" "day")]
    let db := (runSession session .empty).2
    (∀ call ∈ session, call.1.HasPlainYear ∧ call.2.OfLibrary) ∧
      LastChoice "ann" "day" .epoch later (accomplished session (runSession session .empty).1) ∧
      follow "ann" "day" later = some "night" ∧ (getActive "ann" db).result = .ok "discard;" ∧
      (getActivationDate "ann" db).result = .ok .epoch := by
  intro session later db
  have hnow := Instant.hasPlainYear_epoch
  have hkeep : "keep;".utf8ByteSize < columnBound := by decide +kernel
  have hstop : "stop;".utf8ByteSize < columnBound := by decide +kernel
  have hdiscard : "discard;".utf8ByteSize < columnBound := by decide +kernel
  have hlib : ∀ call ∈ session, call.1.HasPlainYear ∧ call.2.OfLibrary := by
    simp only [session, List.forall_mem_cons]
    exact ⟨⟨hnow, hkeep⟩, ⟨hnow, trivial⟩, ⟨hnow, trivial⟩, ⟨hnow, hstop⟩, ⟨hnow, hdiscard⟩,
      ⟨hnow, hkeep⟩, ⟨hnow, trivial⟩, ⟨hnow, trivial⟩, ⟨hnow, trivial⟩, List.forall_mem_nil _⟩
  have hhistory : accomplished session (runSession session .empty).1 =
      [(.epoch, .put "ann" "day" "keep;")] ++ (.epoch, .setActive "ann" "day") :: later := by
    decide +kernel
  have hunchosen : Unchosen "ann" later := by
    intro now name
    simp [later]
  have hlast : LastChoice "ann" "day" .epoch later
      (accomplished session (runSession session .empty).1) := ⟨⟨_, hhistory⟩, hunchosen⟩
  have hfollow : follow "ann" "day" later = some "night" := by decide
  have hcontent : (getActive "ann" db).result = .ok "discard;" := by decide +kernel
  obtain ⟨_, _, -, -, -, -, hdate⟩ :=
    (active_runSession hlib "ann").2 "day" .epoch later hlast (by decide)
  exact ⟨hlib, hlast, hfollow, hcontent, hdate⟩

end FilterStore
