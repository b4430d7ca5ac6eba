import Mathlib.Logic.Equiv.Basic
import FilterStore.Proofs.Repository.Interleaving

/-!
Renaming a script changes its name and nothing else.

* **The exchange of two names.** On a shelf that holds `a` and has `b` free, renaming is the
  exchange of both names (`lookup_moved`, `active_moved`), so it is undone by the renaming back
  (`moved_moved`), and what an operation does to a name it does afterwards to the exchanged one
  (`put_moved`, `remove_moved`, `move_moved`).
* **Calls.** `Operation.replaced` is a call with the new name in place of the old one.
  `Operation.Follows` are the calls that a renaming does not bother: they neither take the script
  away nor ask for the new name, nor do they list the names.
* **Either order.** On the machine such a call does the same before a renaming as the call with the
  new name after it (`act_moved`). The refinement takes this over to the repository: in every
  database of a session of the library a renaming is undone by the renaming back and can be done
  before or after such calls (`renaming_runSession`).
-/

namespace FilterStore

/-! ### The exchange of two names -/

namespace Shelf

open Equiv (swap swap_apply_eq_iff swap_apply_left swap_apply_right swap_apply_of_ne_of_ne
  swap_apply_self)

variable {shelf : Shelf} {a b : String}

/-- A shelf is known by its contents and its pair. -/
lemma eq_of_lookup {s t : Shelf} (hc : ∀ n, s.contents.lookup n = t.contents.lookup n)
    (ha : s.active = t.active) : s = t := by
  cases s
  cases t
  rw [mk.injEq]
  exact ⟨Finmap.ext_lookup hc, ha⟩

lemma lookup_put (shelf : Shelf) (name content n : String) :
    (shelf.put name content).contents.lookup n =
      if n = name then some content else shelf.contents.lookup n := by
  rw [put]
  split_ifs with hn
  · rw [hn, Finmap.lookup_insert]
  · rw [Finmap.lookup_insert_of_ne _ hn]

lemma lookup_remove (shelf : Shelf) (name n : String) :
    (shelf.remove name).contents.lookup n =
      if n = name then none else shelf.contents.lookup n := by
  rw [remove]
  split_ifs with hn
  · rw [hn, Finmap.lookup_erase]
  · rw [Finmap.lookup_erase_ne hn]

lemma lookup_move (shelf : Shelf) (source target content n : String) :
    (shelf.move source target content).contents.lookup n =
      if n = target then some content
      else if n = source then none else shelf.contents.lookup n := by
  rw [move]
  split_ifs with ht hs
  · rw [ht, Finmap.lookup_insert]
  · rw [Finmap.lookup_insert_of_ne _ ht, hs, Finmap.lookup_erase]
  · rw [Finmap.lookup_insert_of_ne _ ht, Finmap.lookup_erase_ne hs]

/-- The shelf with what it holds under `a` moved to `b`. -/
def moved (shelf : Shelf) (a b : String) : Shelf :=
  shelf.move a b (shelf.content a)

/-- The shelf holds `a` and has `b` free. -/
structure Clears (shelf : Shelf) (a b : String) : Prop where
  /-- There is a content under `a`. -/
  held : a ∈ shelf.contents
  /-- There is none under `b`. -/
  free : b ∉ shelf.contents
  /-- The pair is not on `b`. -/
  inactive : ∀ p ∈ shelf.active, p.1 ≠ b

lemma Sound.clears (h : shelf.Sound) (held : a ∈ shelf.contents) (free : b ∉ shelf.contents) :
    shelf.Clears a b :=
  ⟨held, free, fun p hp hb => free (hb ▸ h.held p hp)⟩

lemma Clears.lookup_eq (h : shelf.Clears a b) :
    shelf.contents.lookup a = some (shelf.content a) := by
  obtain ⟨text, hlookup⟩ := Finmap.mem_iff.mp h.held
  rw [content, hlookup]
  rfl

/-- After the move each name holds what the exchanged one held. -/
lemma lookup_moved (h : shelf.Clears a b) (n : String) :
    (shelf.moved a b).contents.lookup n = shelf.contents.lookup (swap a b n) := by
  rw [moved, lookup_move]
  split_ifs with hb ha
  · rw [hb, swap_apply_right, h.lookup_eq]
  · rw [ha, swap_apply_left, Finmap.lookup_eq_none.mpr h.free]
  · rw [swap_apply_of_ne_of_ne ha hb]

/-- The pair is on the exchanged name. -/
lemma active_moved (h : shelf.Clears a b) :
    (shelf.moved a b).active = shelf.active.map fun p => (swap a b p.1, p.2) := by
  rw [moved, move]
  cases hactive : shelf.active with
  | none => rfl
  | some p =>
      have hb : p.1 ≠ b := h.inactive p hactive
      rw [Option.map_some, Option.map_some]
      split_ifs with ha
      · rw [ha, swap_apply_left]
      · rw [swap_apply_of_ne_of_ne ha hb]

lemma content_moved (h : shelf.Clears a b) (n : String) :
    (shelf.moved a b).content (swap a b n) = shelf.content n := by
  rw [content, content, lookup_moved h, swap_apply_self]

lemma dateOf_moved (h : shelf.Clears a b) (n : String) :
    (shelf.moved a b).dateOf (swap a b n) = shelf.dateOf n := by
  rw [dateOf, dateOf, active_moved h]
  cases shelf.active with
  | none => rfl
  | some p => simp [(swap a b).injective.eq_iff]

/-- As many bytes are used beside the exchanged name. -/
lemma usedBeside_moved (h : shelf.Clears a b) (n : String) :
    (shelf.moved a b).usedBeside (swap a b n) = shelf.usedBeside n := by
  have hmem : ∀ k, k ∈ (shelf.moved a b).contents.keys.erase (swap a b n) ↔
      swap a b k ∈ shelf.contents.keys.erase n := by
    intro k
    rw [Finset.mem_erase, Finset.mem_erase, Finmap.mem_keys, Finmap.mem_keys, Finmap.mem_iff,
      Finmap.mem_iff, lookup_moved h, ne_eq, ne_eq, swap_apply_eq_iff]
  rw [usedBeside, usedBeside]
  refine Finset.sum_nbij' (swap a b) (swap a b) (fun k hk => (hmem k).mp hk) (fun k hk => ?_)
    (fun k _ => swap_apply_self a b k) (fun k _ => swap_apply_self a b k) fun k _ => ?_
  · rw [hmem, swap_apply_self]
    exact hk
  · rw [← content_moved h (swap a b k), swap_apply_self]

/-- After the move the shelf holds `b` and has `a` free. -/
lemma Clears.moved (h : shelf.Clears a b) : (shelf.moved a b).Clears b a where
  held := by
    rw [← Finmap.lookup_isSome, lookup_moved h, swap_apply_right, h.lookup_eq, Option.isSome_some]
  free := by
    rw [← Finmap.lookup_eq_none, lookup_moved h, swap_apply_left, Finmap.lookup_eq_none]
    exact h.free
  inactive p hp := by
    rw [active_moved h] at hp
    obtain ⟨q, hq, rfl⟩ := Option.map_eq_some_iff.mp hp
    rw [ne_eq, swap_apply_eq_iff, swap_apply_left]
    exact h.inactive q hq

/-- The move back undoes the move. -/
lemma moved_moved (h : shelf.Clears a b) : (shelf.moved a b).moved b a = shelf := by
  refine eq_of_lookup (fun n => ?_) ?_
  · rw [lookup_moved h.moved, lookup_moved h, Equiv.swap_comm b a, swap_apply_self]
  · rw [active_moved h.moved, active_moved h, Equiv.swap_comm b a, Option.map_map]
    simp [Function.comp_def]

/-! ### What is done to a name is done to the exchanged one -/

section Exchanged

variable {n : String}

lemma Clears.put (h : shelf.Clears a b) (hn : n ≠ b) (content : String) :
    (shelf.put n content).Clears a b where
  held := Finmap.mem_insert.mpr (.inr h.held)
  free hb := (Finmap.mem_insert.mp hb).elim (fun hbn => hn hbn.symm) h.free
  inactive := h.inactive

lemma put_moved (h : shelf.Clears a b) (hn : n ≠ b) (content : String) :
    (shelf.moved a b).put (swap a b n) content = (shelf.put n content).moved a b := by
  refine eq_of_lookup (fun k => ?_) ?_
  · rw [lookup_put, lookup_moved h, lookup_moved (h.put hn content), lookup_put]
    simp only [swap_apply_eq_iff]
  · rw [active_moved (h.put hn content)]
    exact active_moved h

lemma Clears.activate (h : shelf.Clears a b) (hn : n ≠ b) (now : Instant) :
    (shelf.activate n now).Clears a b where
  held := h.held
  free := h.free
  inactive p hp := by
    rw [← Option.some.inj hp]
    exact hn

lemma activate_moved (h : shelf.Clears a b) (hn : n ≠ b) (now : Instant) :
    (shelf.moved a b).activate (swap a b n) now = (shelf.activate n now).moved a b := by
  refine eq_of_lookup (fun k => ?_) ?_
  · rw [lookup_moved (h.activate hn now)]
    exact lookup_moved h k
  · rw [active_moved (h.activate hn now)]
    rfl

lemma Clears.switchOff (h : shelf.Clears a b) : shelf.switchOff.Clears a b where
  held := h.held
  free := h.free
  inactive _ hp := nomatch hp

lemma switchOff_moved (h : shelf.Clears a b) :
    (shelf.moved a b).switchOff = shelf.switchOff.moved a b := by
  refine eq_of_lookup (fun k => ?_) ?_
  · rw [lookup_moved h.switchOff]
    exact lookup_moved h k
  · rw [active_moved h.switchOff]
    rfl

lemma Clears.remove (h : shelf.Clears a b) (hn : n ≠ a) : (shelf.remove n).Clears a b where
  held := Finmap.mem_erase.mpr ⟨hn.symm, h.held⟩
  free hb := h.free (Finmap.mem_erase.mp hb).2
  inactive := h.inactive

lemma remove_moved (h : shelf.Clears a b) (hn : n ≠ a) :
    (shelf.moved a b).remove (swap a b n) = (shelf.remove n).moved a b := by
  refine eq_of_lookup (fun k => ?_) ?_
  · rw [lookup_remove, lookup_moved h, lookup_moved (h.remove hn), lookup_remove]
    simp only [swap_apply_eq_iff]
  · rw [active_moved (h.remove hn)]
    exact active_moved h

lemma Clears.move (h : shelf.Clears a b) {source target : String} (hs : source ≠ a)
    (ht : target ≠ b) (content : String) : (shelf.move source target content).Clears a b where
  held := Finmap.mem_insert.mpr (.inr (Finmap.mem_erase.mpr ⟨hs.symm, h.held⟩))
  free hb := (Finmap.mem_insert.mp hb).elim (fun hbt => ht hbt.symm)
    fun hb => h.free (Finmap.mem_erase.mp hb).2
  inactive p hp := by
    obtain ⟨q, hq, rfl⟩ := Option.map_eq_some_iff.mp hp
    split_ifs
    · exact ht
    · exact h.inactive q hq

lemma move_moved (h : shelf.Clears a b) {source target : String} (hs : source ≠ a)
    (ht : target ≠ b) (content : String) :
    (shelf.moved a b).move (swap a b source) (swap a b target) content
      = (shelf.move source target content).moved a b := by
  refine eq_of_lookup (fun k => ?_) ?_
  · rw [lookup_move, lookup_moved h, lookup_moved (h.move hs ht content), lookup_move]
    simp only [swap_apply_eq_iff]
  · rw [active_moved (h.move hs ht content), move, move, active_moved h, Option.map_map,
      Option.map_map]
    refine congrArg (fun f => Option.map f shelf.active) (funext fun p => ?_)
    simp only [Function.comp_apply, (swap a b).injective.eq_iff]
    split_ifs <;> rfl

end Exchanged

end Shelf

/-! ### Calls -/

namespace Operation

/-- The name of a script that had another name before one of its owner's scripts was renamed. -/
def nameAfter (owner a b o n : String) : String :=
  if o = owner ∧ n = a then b else n

/-- The call with the new name of a renamed script in place of the old one. -/
def replaced (owner a b : String) : Operation → Operation
  | .haveSpace o n size => .haveSpace o (nameAfter owner a b o n) size
  | .put o n content => .put o (nameAfter owner a b o n) content
  | .get o n => .get o (nameAfter owner a b o n)
  | .setActive o n => .setActive o (nameAfter owner a b o n)
  | .delete o n => .delete o (nameAfter owner a b o n)
  | .rename o source target =>
    .rename o (nameAfter owner a b o source) (nameAfter owner a b o target)
  | op => op

/-- A call of the owner, or one about the default quota, that a renaming from `a` to `b` does not
bother: it does not ask for the new name, it does not take the script away, and it does not tell the
names. -/
def Follows (owner a b : String) : Operation → Prop
  | .haveSpace o n _ | .put o n _ | .get o n | .setActive o n => o = owner ∧ n ≠ b
  | .delete o n => o = owner ∧ n ≠ a ∧ n ≠ b
  | .rename o source target => o = owner ∧ source ≠ a ∧ source ≠ b ∧ target ≠ a ∧ target ≠ b
  | .getActive o | .getActivationDate o => o = owner
  | .list _ => False
  | op => op.OnQuotas

variable {owner a b n : String} {op : Operation}

lemma nameAfter_self (hn : n ≠ b) : nameAfter owner a b owner n = Equiv.swap a b n := by
  rw [nameAfter, Equiv.swap_apply_def]
  simp [hn]

lemma nameAfter_of_ne {o : String} (ho : o ≠ owner) : nameAfter owner a b o n = n :=
  if_neg fun h => ho h.1

/-- A call of another owner stays as it is. -/
lemma replaced_of_ne {o : String} (h : op.owner? = some o) (ho : o ≠ owner) :
    op.replaced owner a b = op := by
  cases op <;> first
    | rfl
    | (cases h; simp only [replaced, nameAfter_of_ne ho])

lemma fits_replaced (owner a b : String) : (op.replaced owner a b).Fits ↔ op.Fits := by
  cases op <;> rfl

end Operation

/-! ### The machine -/

namespace Machine

open Operation
open Equiv (swap)

variable {m : Machine} {owner a b : String}

/-- The machine in which what an owner has under `a` is under `b`. -/
def moved (m : Machine) (owner a b : String) : Machine :=
  m.withShelf owner ((m.shelf owner).moved a b)

lemma shelf_moved (m : Machine) (owner a b : String) :
    (m.moved owner a b).shelf owner = (m.shelf owner).moved a b :=
  m.withShelf_self owner _

/-- A shelf that replaces the owner's is the same before and after the move. -/
lemma moved_withShelf (m : Machine) (owner a b : String) (shelf : Shelf) :
    (m.moved owner a b).withShelf owner (shelf.moved a b)
      = (m.withShelf owner shelf).moved owner a b := by
  rw [moved, moved, withShelf_withShelf, withShelf_self, withShelf_withShelf]

/-- The move back undoes the move. -/
lemma moved_moved (h : (m.shelf owner).Clears a b) : (m.moved owner a b).moved owner b a = m := by
  rw [moved, shelf_moved, Shelf.moved_moved h, moved, withShelf_withShelf, withShelf_shelf]

/-- A renaming moves what is under the name. -/
lemma act_rename (h : (m.shelf owner).Clears a b) (now : Instant) :
    m.act now (.rename owner a b) = .ok (.done, m.moved owner a b) := by
  simp only [act, h.lookup_eq, Finmap.lookup_eq_none.mpr h.free]
  rfl

/-- There is as much space for the exchanged name. -/
lemma checkSpace_moved (h : (m.shelf owner).Clears a b) (n : String) (bytes : ℕ) :
    (m.moved owner a b).checkSpace owner (swap a b n) bytes = m.checkSpace owner n bytes := by
  rw [checkSpace, checkSpace, shelf_moved, Shelf.usedBeside_moved h]
  rfl

/-- A call that a renaming does not bother does the same with the new name after it. -/
theorem act_moved (h : (m.shelf owner).Clears a b) (ha : a ≠ "") (hb : b ≠ "") {op : Operation}
    (hop : op.Follows owner a b) (now : Instant) :
    (m.moved owner a b).act now (op.replaced owner a b) =
      (m.act now op).map fun done => (done.1, done.2.moved owner a b) := by
  have hlookup : ∀ n, ((m.moved owner a b).shelf owner).contents.lookup (swap a b n)
      = (m.shelf owner).contents.lookup n := fun n => by
    rw [shelf_moved, Shelf.lookup_moved h, Equiv.swap_apply_self]
  -- a name that is not held is not the one that is renamed
  have hsame : ∀ n, n ≠ b → (m.shelf owner).contents.lookup n = none → swap a b n = n := by
    intro n hn hnone
    refine Equiv.swap_apply_of_ne_of_ne ?_ hn
    rintro rfl
    rw [h.lookup_eq] at hnone
    cases hnone
  have hget := getLimit_of_limit (m := m) (f := fun m => m.moved owner a b) rfl
  have hset := setLimit_of_withLimit (m := m) (f := fun m => m.moved owner a b) fun _ _ => rfl
  cases op with
  | haveSpace o n size =>
      obtain ⟨rfl, hn⟩ := hop
      rw [replaced, act, act, nameAfter_self hn, checkSpace_moved h]
      cases m.checkSpace o n size.toNat <;> rfl
  | put o n content =>
      obtain ⟨rfl, hn⟩ := hop
      rw [replaced, act, act, nameAfter_self hn, checkSpace_moved h]
      cases m.checkSpace o n content.utf8ByteSize with
      | error e => rfl
      | ok u =>
          simp only [bind, Except.bind, shelf_moved, Shelf.put_moved h hn, moved_withShelf]
          rfl
  | get o n =>
      obtain ⟨rfl, hn⟩ := hop
      rw [replaced, act, act, nameAfter_self hn, hlookup]
      cases hheld : (m.shelf o).contents.lookup n with
      | none => simp only [hsame n hn hheld, Except.map]
      | some content => rfl
  | getActive o =>
      obtain rfl : o = owner := hop
      have hcall : (Operation.getActive o).replaced o a b = .getActive o := rfl
      rw [hcall, act, act, shelf_moved, Shelf.active_moved h]
      cases (m.shelf o).active with
      | none => rfl
      | some p => simp only [Option.map_some, Shelf.content_moved h, Except.map]
  | getActivationDate o =>
      obtain rfl : o = owner := hop
      have hcall : (Operation.getActivationDate o).replaced o a b = .getActivationDate o := rfl
      rw [hcall, act, act, shelf_moved, Shelf.active_moved h]
      cases (m.shelf o).active with
      | none => rfl
      | some p => rfl
  | setActive o n =>
      obtain ⟨rfl, hn⟩ := hop
      rw [replaced, act, act, nameAfter_self hn, hlookup]
      have hempty : swap a b n = "" ↔ n = "" := by
        rw [Equiv.swap_apply_eq_iff, Equiv.swap_apply_of_ne_of_ne ha.symm hb.symm]
      simp only [hempty]
      split_ifs with hname
      · rw [shelf_moved, Shelf.switchOff_moved h, moved_withShelf]
        rfl
      · cases hheld : (m.shelf o).contents.lookup n with
        | none => simp only [hsame n hn hheld, Except.map]
        | some content =>
            simp only [shelf_moved, Shelf.activate_moved h hn, moved_withShelf]
            rfl
  | delete o n =>
      obtain ⟨rfl, hna, hn⟩ := hop
      rw [replaced, act, act, nameAfter_self hn, hlookup, shelf_moved, Shelf.dateOf_moved h,
        Shelf.remove_moved h hna, moved_withShelf, Equiv.swap_apply_of_ne_of_ne hna hn]
      cases (m.shelf o).contents.lookup n with
      | none => rfl
      | some content => cases (m.shelf o).dateOf n <;> rfl
  | rename o source target =>
      obtain ⟨rfl, hsa, hsb, hta, htb⟩ := hop
      have hmove : ∀ content, ((m.shelf o).moved a b).move source target content
          = ((m.shelf o).move source target content).moved a b := fun content => by
        have hexchanged := Shelf.move_moved h hsa htb content
        rwa [Equiv.swap_apply_of_ne_of_ne hsa hsb, Equiv.swap_apply_of_ne_of_ne hta htb]
          at hexchanged
      rw [replaced, act, act, nameAfter_self hsb, nameAfter_self htb, hlookup, hlookup,
        Equiv.swap_apply_of_ne_of_ne hsa hsb, Equiv.swap_apply_of_ne_of_ne hta htb]
      simp only [shelf_moved, hmove, moved_withShelf]
      cases (m.shelf o).contents.lookup source with
      | none => rfl
      | some content => cases (m.shelf o).contents.lookup target <;> rfl
  | list o => exact hop.elim
  | getDefaultQuota => exact hget .default
  | getQuota o => exact hget (.owner o)
  | setDefaultQuota limit => exact hset .default limit
  | setQuota o limit => exact hset (.owner o) limit
  | hasDefaultQuota => rfl
  | hasQuota o => rfl
  | removeDefaultQuota => rfl
  | removeQuota o => rfl

/-- Such a call leaves the name held and the new one free. -/
lemma clears_of_act (h : (m.shelf owner).Clears a b) {op : Operation} (hop : op.Follows owner a b)
    {now : Instant} {answer : Answer} {after : Machine}
    (hact : m.act now op = .ok (answer, after)) :
    (after.shelf owner).Clears a b := by
  cases goes_of_act hact with
  | put o n content =>
      obtain ⟨rfl, hn⟩ := hop
      rw [withShelf_self]
      exact h.put hn content
  | switchOff o =>
      obtain ⟨rfl, -⟩ := hop
      rw [withShelf_self]
      exact h.switchOff
  | activate named =>
      obtain ⟨rfl, hn⟩ := hop
      rw [withShelf_self]
      exact h.activate hn now
  | delete inactive =>
      obtain ⟨rfl, hna, -⟩ := hop
      rw [withShelf_self]
      exact h.remove hna
  | @rename o source content target held =>
      obtain ⟨rfl, hsa, -, -, htb⟩ := hop
      rw [withShelf_self]
      exact h.move hsa htb content
  | keep keeps same =>
      rw [same]
      exact h

end Machine

/-! ### The repository -/

namespace Operation

open Repository

variable {now later : Instant} {x : Operation} {db : Database} {m : Machine} {owner a b : String}

/-- A call and the renaming can be done in either order, the call with the new name if it comes
after the renaming: both answer the same, and the database in the end is the same. -/
structure PassesRenaming (owner a b : String) (now later : Instant) (x : Operation)
    (db : Database) : Prop where
  /-- The answer to the call. -/
  first : (x.run now db).result
    = ((x.replaced owner a b).run now ((rename owner a b).run later db).database).result
  /-- The answer to the renaming. -/
  second : ((rename owner a b).run later (x.run now db).database).result
    = ((rename owner a b).run later db).result
  /-- The database in the end. -/
  database : ((rename owner a b).run later (x.run now db).database).database
    = ((x.replaced owner a b).run now ((rename owner a b).run later db).database).database

/-- A renaming is done at no particular time. -/
lemma run_rename (now later : Instant) (owner a b : String) (db : Database) :
    (rename owner a b).run now db = (rename owner a b).run later db :=
  rfl

/-- A renaming to a free name moves what is under the old one. -/
lemma rename_of_clears (h : Represents db m) (hb : checkScript owner b = .ok ())
    (hclears : (m.shelf owner).Clears a b) (later : Instant) :
    ((rename owner a b).run later db).result = .ok .done ∧
      Represents ((rename owner a b).run later db).database (m.moved owner a b) := by
  have hfit : (rename owner a b).Fits := trivial
  have hrun := refines_act h Instant.hasPlainYear_epoch hfit hb
  rwa [Machine.act_rename hclears, run_rename .epoch later] at hrun

/-- A renaming leaves a sound database sound, whenever it is done. -/
lemma sound_rename (hdb : db.Sound) (later : Instant) :
    ((rename owner a b).run later db).database.Sound := by
  have hfit : (rename owner a b).Fits := trivial
  rw [run_rename later .epoch]
  exact sound_run hdb hfit Instant.hasPlainYear_epoch

/-- The renaming back undoes a renaming. -/
theorem rename_rename (h : Represents db m) (hdb : db.Sound) (ha : checkScript owner a = .ok ())
    (hb : checkScript owner b = .ok ()) (hclears : (m.shelf owner).Clears a b)
    (now later : Instant) :
    let renamed := (rename owner a b).run now db
    let back := (rename owner b a).run later renamed.database
    renamed.result = .ok .done ∧ back.result = .ok .done ∧ back.database = db := by
  intro renamed back
  obtain ⟨hfirst, hrenamed⟩ := rename_of_clears h hb hclears now
  have hthere : ((m.moved owner a b).shelf owner).Clears b a := by
    rw [Machine.shelf_moved]
    exact hclears.moved
  obtain ⟨hsecond, hback⟩ := rename_of_clears hrenamed ha hthere later
  rw [Machine.moved_moved hclears] at hback
  exact ⟨hfirst, hsecond, hback.eq_of_sound h (sound_rename (sound_rename hdb now) later) hdb⟩

/-- The new name is as good as the old one. -/
lemma checks_replaced (hnames : checkScript owner a = checkScript owner b)
    (hx : x.Follows owner a b) : (x.replaced owner a b).checks = x.checks := by
  cases x with
  | put o n content =>
      obtain ⟨rfl, -⟩ := hx
      simp only [replaced, checks, nameAfter, true_and]
      split_ifs with hn
      · rw [hn, hnames]
      · rfl
  | rename o source target =>
      obtain ⟨rfl, -, -, hta, -⟩ := hx
      simp only [replaced, checks, nameAfter, true_and, if_neg hta]
  | list o => exact hx.elim
  | _ => rfl

/-- A call that a renaming does not bother can be done before or after it. -/
theorem passesRenaming_of_follows (h : Represents db m) (hdb : db.Sound)
    (ha : checkScript owner a = .ok ()) (hb : checkScript owner b = .ok ())
    (hclears : (m.shelf owner).Clears a b) (hx : x.Follows owner a b) (hnow : now.HasPlainYear)
    (hfit : x.Fits) (later : Instant) : x.PassesRenaming owner a b now later db := by
  have hchecks := checks_replaced (ha.trans hb.symm) hx
  cases hc : x.checks with
  | error e =>
      rw [hc] at hchecks
      refine ⟨?_, ?_, ?_⟩ <;> simp only [run_of_checks_error hc, run_of_checks_error hchecks]
  | ok u =>
      rw [hc] at hchecks
      have hfit' := (fits_replaced owner a b).mpr hfit
      obtain ⟨hrenamed, hmoved⟩ := rename_of_clears h hb hclears later
      have hbefore := refines_act h hnow hfit hc
      have hafter := refines_act hmoved hnow hfit' hchecks
      have hne : ∀ {n}, checkScript owner n = .ok () → n ≠ "" := fun hn =>
        (Name.require_eq_ok_iff.mp (checkScript_eq_ok_iff.mp hn).2).1
      rw [Machine.act_moved hclears (hne ha) (hne hb) hx] at hafter
      -- both orders lead to sound databases that hold the same
      have hsound : ∀ {m' : Machine},
          Represents ((rename owner a b).run later (x.run now db).database).database m' →
          Represents ((x.replaced owner a b).run now
            ((rename owner a b).run later db).database).database m' →
          ((rename owner a b).run later (x.run now db).database).database
            = ((x.replaced owner a b).run now
                ((rename owner a b).run later db).database).database := fun h₁ h₂ =>
        h₁.eq_of_sound h₂ (sound_rename (sound_run hdb hfit hnow) later)
          (sound_run (sound_rename hdb later) hfit' hnow)
      cases hact : m.act now x with
      | error e =>
          rw [hact] at hbefore hafter
          obtain ⟨hlast, hleft⟩ := rename_of_clears hbefore.2 hb hclears later
          exact ⟨hbefore.1.trans hafter.1.symm, hlast.trans hrenamed.symm, hsound hleft hafter.2⟩
      | ok done =>
          obtain ⟨answer, after⟩ := done
          rw [hact] at hbefore hafter
          obtain ⟨hlast, hleft⟩ :=
            rename_of_clears hbefore.2 hb (Machine.clears_of_act hclears hx hact) later
          exact ⟨hbefore.1.trans hafter.1.symm, hlast.trans hrenamed.symm, hsound hleft hafter.2⟩

/-- So can every call of another owner, whatever rows there are. -/
theorem passesRenaming_of_owner (hdb : db.Schema) {o : String} (hx : x.owner? = some o)
    (ho : o ≠ owner) (a b : String) (now later : Instant) :
    x.PassesRenaming owner a b now later db := by
  have hrename : (rename owner a b).owner? = some owner := rfl
  have hcommutes : Commutes now x later (rename owner a b) db :=
    commutes_of_owners hdb hx hrename ho
  have hsame : x.replaced owner a b = x := replaced_of_ne hx ho
  refine ⟨?_, hcommutes.second, ?_⟩
  · rw [hsame]
    exact hcommutes.first
  · rw [hsame]
    exact hcommutes.database

end Operation

/-! ### Every session -/

/-- A stored script has good names. -/
lemma Database.Sound.checkScript_of_hasScript {db : Database} (h : db.Sound) {owner name : String}
    (hname : db.HasScript owner name) : Repository.checkScript owner name = .ok () := by
  obtain ⟨r, hr, rfl, rfl⟩ := hname
  exact Operation.checkScript_eq_ok_iff_check.mpr ⟨(h.scripts r hr).owner, (h.scripts r hr).name⟩

/-- **Renaming is undone and can be put off**: in every database that a session of the library leads
to from the empty one, a script can be renamed to every valid name that its owner has free, and the
renaming back restores the database. Every call of another owner, and every call of this owner that
neither takes the script away nor asks for the new name nor tells the names, answers the same before
the renaming and, with the new name in place of the old one, after it, a refusal for lack of space
with its numbers included; the renaming succeeds in either order, and the database in the end is the
same. -/
theorem renaming_runSession {session : List (Instant × Request)}
    (hlib : ∀ call ∈ session, call.1.HasPlainYear ∧ call.2.OfLibrary) {owner a b : String}
    (ha : (runSession session .empty).2.HasScript owner a)
    (hb : ¬ (runSession session .empty).2.HasScript owner b) (hvalid : Name.Valid .script b) :
    let db := (runSession session .empty).2
    (∀ now later : Instant,
      let renamed := (Operation.rename owner a b).run now db
      let back := (Operation.rename owner b a).run later renamed.database
      renamed.result = .ok .done ∧ back.result = .ok .done ∧ back.database = db) ∧
    ∀ (x : Operation) (now later : Instant),
      (∃ o, x.owner? = some o ∧ o ≠ owner) ∨
        (x.Follows owner a b ∧ now.HasPlainYear ∧ x.Fits) →
      x.PassesRenaming owner a b now later db := by
  intro db
  obtain ⟨hsound, m, hm⟩ : db.Settled := settled_runSession hlib
  have hca := hsound.checkScript_of_hasScript ha
  have hcb : Repository.checkScript owner b = .ok () :=
    Repository.checkScript_eq_ok_iff.mpr
      ⟨(Repository.checkScript_eq_ok_iff.mp hca).1, Name.require_eq_ok_iff.mpr hvalid⟩
  have hclears : (m.shelf owner).Clears a b :=
    (hm.sound owner).clears (hm.hasScript_iff.mp ha) fun hheld => hb (hm.hasScript_iff.mpr hheld)
  refine ⟨fun now later => Operation.rename_rename hm hsound hca hcb hclears now later, ?_⟩
  rintro x now later (⟨o, hx, ho⟩ | ⟨hx, hnow, hfit⟩)
  · exact Operation.passesRenaming_of_owner hsound.schema hx ho a b now later
  · exact Operation.passesRenaming_of_follows hm hsound hca hcb hclears hx hnow hfit later

/-- The active script is renamed. A content that is too long for it is refused with the same numbers
under the new name, and another owner's call passes the renaming too. -/
theorem renaming_runSession_refused :
    let session : List (Instant × Request) :=
      [(.epoch, .setUp), (.epoch, .operation (.put "ann" "day" "keep;")),
        (.epoch, .operation (.put "ann" "eve" "stop;")),
        (.epoch, .operation (.setActive "ann" "day")),
        (.epoch, .operation (.setQuota "ann" (.bytes 12)))]
    let db := (runSession session .empty).2
    let long : Operation := .put "ann" "day" "discard;"
    db.HasScript "ann" "day" ∧ ¬ db.HasScript "ann" "night" ∧ Name.Valid .script "night" ∧
      ((Operation.rename "ann" "night" "day").run .epoch
        ((Operation.rename "ann" "day" "night").run .epoch db).database).database = db ∧
      long.replaced "ann" "day" "night" = .put "ann" "night" "discard;" ∧
      (long.run .epoch db).result = .error (.quotaExceeded "ann" 5 8 12) ∧
      long.PassesRenaming "ann" "day" "night" .epoch .epoch db ∧
      (Operation.list "bob").PassesRenaming "ann" "day" "night" .epoch .epoch db := by
  intro session db long
  have hnow := Instant.hasPlainYear_epoch
  have hkeep : "keep;".utf8ByteSize < columnBound := by decide +kernel
  have hstop : "stop;".utf8ByteSize < columnBound := by decide +kernel
  have hfit : long.Fits := by
    have hlong : "discard;".utf8ByteSize < columnBound := by decide +kernel
    exact hlong
  have hlib : ∀ call ∈ session, call.1.HasPlainYear ∧ call.2.OfLibrary := by
    simp only [session, List.forall_mem_cons]
    exact ⟨⟨hnow, trivial⟩, ⟨hnow, hkeep⟩, ⟨hnow, hstop⟩, ⟨hnow, trivial⟩, ⟨hnow, trivial⟩,
      List.forall_mem_nil _⟩
  have hrows : db.scripts = [⟨"ann", "day", "keep;", 5, 1, some "1970-01-01T00:00:00+00:00"⟩,
      ⟨"ann", "eve", "stop;", 5, 0, none⟩] := by decide +kernel
  have ha : db.HasScript "ann" "day" := by
    rw [Database.HasScript, hrows]
    exact ⟨_, List.mem_cons_self, rfl, rfl⟩
  have hb : ¬ db.HasScript "ann" "night" := by
    rw [Database.HasScript, hrows]
    decide
  have hvalid : Name.Valid .script "night" := Name.check_eq_ok_iff.mp (by decide +kernel)
  have hfollows : long.Follows "ann" "day" "night" := ⟨rfl, by decide⟩
  obtain ⟨hundone, hpasses⟩ := renaming_runSession hlib ha hb hvalid
  exact ⟨ha, hb, hvalid, (hundone .epoch .epoch).2.2, by decide +kernel, by decide +kernel,
    hpasses long .epoch .epoch (.inr ⟨hfollows, hnow, hfit⟩),
    hpasses (.list "bob") .epoch .epoch (.inl ⟨"bob", rfl, by decide⟩)⟩

end FilterStore
