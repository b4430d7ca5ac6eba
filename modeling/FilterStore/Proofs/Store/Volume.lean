import FilterStore.Proofs.Store.Statement

/-!
How many bytes an owner has stored.

* **Tables as collections.** Up to order, a table after a put is the new row and the table without
  its key (`Table.perm_put`), and a table is any of its rows and the rest (`Table.perm_erase`).
* **The sum.** `Database.bytes` adds up the lengths of the contents of an owner, as an unbounded
  number. `bytes_store` and `bytes_of_mem` say how a script counts in it, so that a script stored in
  its own place changes nothing (`bytes_store_of_shows`) and no deletion adds anything
  (`bytes_deleteScript_le`).
* **The limit.** `Database.limitInForce` is the limit that applies to an owner, said by the entries
  there are. It is the one that the space check works with (`limitInForce_of_found`).
* **Bounded sums.** A sum in 64 bits is the exact sum or the greatest count
  (`toNat_foldl_addBounded`), so it compares with a limit as the exact sum does (`admits_iff`).
-/

namespace FilterStore

/-! ### Tables as collections -/

namespace Table

open Keyed

variable {α κ : Type} [Keyed α κ] [DecidableEq κ] [KeyOrder κ] {t : List α}

omit [DecidableEq κ] in
lemma Sorted.nodup (h : Sorted t) : t.Nodup := by
  refine h.imp fun {a b} hab heq => ?_
  rw [heq, KeyOrder.irrefl] at hab
  cases hab

/-- Up to order, a put adds the row to the rows of other keys. -/
lemma perm_put (h : Sorted t) (row : α) : (put row t).Perm (row :: erase (key row) t) := by
  have hrest : (row :: erase (key row) t).Nodup :=
    List.nodup_cons.mpr ⟨fun hmem => (mem_erase.mp hmem).2 rfl, h.erase.nodup⟩
  rw [List.perm_ext_iff_of_nodup h.put.nodup hrest]
  intro r
  rw [mem_put h, List.mem_cons, mem_erase]

/-- Up to order, a table is one of its rows and the rows of other keys. -/
lemma perm_erase (h : Sorted t) {row : α} (hrow : row ∈ t) :
    t.Perm (row :: erase (key row) t) := by
  have hrest : (row :: erase (key row) t).Nodup :=
    List.nodup_cons.mpr ⟨fun hmem => (mem_erase.mp hmem).2 rfl, h.erase.nodup⟩
  rw [List.perm_ext_iff_of_nodup h.nodup hrest]
  intro r
  rw [List.mem_cons, mem_erase]
  constructor
  · intro hr
    by_cases hkey : key r = key row
    · exact .inl (h.eq_of_key_eq hr hrow hkey)
    · exact .inr ⟨hr, hkey⟩
  · rintro (rfl | ⟨hr, -⟩)
    · exact hrow
    · exact hr

end Table

/-! ### The sum -/

namespace Database

variable {db : Database} {owner name : String}

/-- The sum of the lengths of the contents of an owner. -/
def bytes (db : Database) (owner : String) : ℕ :=
  ((db.scriptRows owner).map fun r => r.content.utf8ByteSize).sum

/-- A row counts for its owner beside the rows of other keys. -/
lemma bytes_of_perm {row : ScriptRow} {db rest : Database}
    (h : db.scripts.Perm (row :: rest.scripts)) (owner : String) :
    db.bytes owner
      = rest.bytes owner + if row.owner = owner then row.content.utf8ByteSize else 0 := by
  have hrows := h.filter fun r => decide (r.owner = owner)
  rw [bytes, scriptRows, (hrows.map _).sum_eq, bytes, scriptRows]
  split_ifs with ho
  · rw [List.filter_cons_of_pos (by simpa using ho), List.map_cons, List.sum_cons, Nat.add_comm]
  · rw [List.filter_cons_of_neg (by simpa using ho), Nat.add_zero]

/-- A stored script counts for its owner, in place of the one that it replaces. -/
lemma bytes_store (h : db.Schema) (s : Script) (owner : String) :
    (db.store s).bytes owner
      = (db.deleteScript s.owner s.name).bytes owner
        + if s.owner = owner then s.content.utf8ByteSize else 0 := by
  have hperm : (db.store s).scripts.Perm (s.stored :: (db.deleteScript s.owner s.name).scripts) :=
    Table.perm_put h.scripts_sorted s.stored
  exact bytes_of_perm hperm owner

/-- A script that is there counts for its owner. -/
lemma bytes_of_mem (h : db.Schema) {r : ScriptRow} (hr : r ∈ db.scripts) (owner : String) :
    db.bytes owner
      = (db.deleteScript r.owner r.name).bytes owner
        + if r.owner = owner then r.content.utf8ByteSize else 0 := by
  have hperm : db.scripts.Perm (r :: (db.deleteScript r.owner r.name).scripts) :=
    Table.perm_erase h.scripts_sorted hr
  exact bytes_of_perm hperm owner

/-- A deletion adds nothing. -/
lemma bytes_deleteScript_le (o n owner : String) :
    (db.deleteScript o n).bytes owner ≤ db.bytes owner :=
  ((List.filter_sublist.filter _).map _).sum_le_sum fun _ _ => Nat.zero_le _

/-- A script stored in the place of one with the same content changes nothing. -/
lemma bytes_store_of_shows (h : db.Schema) {r : ScriptRow} {s t : Script} (hr : r ∈ db.scripts)
    (hs : r.Shows s) (ho : t.owner = s.owner) (hn : t.name = s.name) (hc : t.content = s.content)
    (owner : String) : (db.store t).bytes owner = db.bytes owner := by
  rw [bytes_store h, bytes_of_mem h hr, ho, hn, hc, hs.owner, hs.name, hs.content]

/-- What is left of a listing after a deletion. -/
lemma findAll_deleteScript {scripts : List Script} (h : db.findAll owner = .ok scripts)
    (name : String) :
    (db.deleteScript owner name).findAll owner = .ok (scripts.filter fun s => s.name ≠ name) := by
  have hread := mapM_eq_ok_iff.mp h
  have hrows : (db.deleteScript owner name).scriptRows owner
      = (db.scriptRows owner).filter fun r => r.name ≠ name := by
    simp only [scriptRows, deleteScript, Table.erase, List.filter_filter, ScriptRow.key_eq]
    refine List.filter_congr fun r _ => ?_
    by_cases ho : r.owner = owner <;> simp [ho]
  rw [findAll, hrows, mapM_eq_ok_iff]
  generalize db.scriptRows owner = rows at hread
  clear h hrows
  induction hread with
  | nil => exact .nil
  | @cons r s rows scripts hrs _ ih =>
      have hname : s.name = r.name := (ScriptRow.script_eq_ok_iff.mp hrs).name
      by_cases hn : r.name = name
      · rw [List.filter_cons_of_neg (by simpa using hn),
          List.filter_cons_of_neg (by simpa [hname] using hn)]
        exact ih
      · rw [List.filter_cons_of_pos (by simpa using hn),
          List.filter_cons_of_pos (by simpa [hname] using hn)]
        exact .cons hrs ih

/-- Where sizes are those of the contents, the sizes of the listing add up to the sum. -/
lemma sum_size_of_findAll {scripts : List Script} (h : db.findAll owner = .ok scripts)
    (hexact : ∀ r ∈ db.scripts, r.Exact) :
    (scripts.map fun s => s.size.toNat).sum = db.bytes owner := by
  have hread := mapM_eq_ok_iff.mp h
  have hrows : ∀ r ∈ db.scriptRows owner, r.Exact := fun r hr => hexact r (mem_scriptRows.mp hr).1
  rw [bytes]
  generalize db.scriptRows owner = rows at hread hrows
  clear h
  induction hread with
  | nil => rfl
  | @cons r s rows scripts hrs _ ih =>
      have hs := (ScriptRow.script_eq_ok_iff.mp hrs)
      have hsize : s.size.toNat = r.content.utf8ByteSize :=
        hs.content ▸ (hs.exact (hrows r List.mem_cons_self)).size
      rw [List.map_cons, List.sum_cons, List.map_cons, List.sum_cons, hsize,
        ih fun q hq => hrows q (List.mem_cons_of_mem r hq)]

/-! ### The limit -/

/-- The limit that applies to an owner, if the owner's entry and the default entry can be read: that
of the owner's entry, else that of the default entry, else none. -/
def limitInForce (db : Database) (owner : String) : Except StorageFault Limit := do
  match ← db.findLimit (.owner owner), ← db.findLimit .default with
  | some own, _ => return own
  | none, some default => return default
  | none, none => return .unlimited

/-- The limit in force is the effective one of the two entries that are looked up. -/
lemma limitInForce_of_found {own default : Option Limit}
    (hown : db.findLimit (.owner owner) = .ok own)
    (hdefault : db.findLimit .default = .ok default) :
    db.limitInForce owner = .ok (effectiveLimit own default) := by
  rw [limitInForce, hown, hdefault]
  cases own with
  | some limit => rfl
  | none => cases default <;> rfl

/-- The limit depends on the quota entries only. -/
lemma limitInForce_congr {after : Database} (h : after.quotas = db.quotas) (owner : String) :
    after.limitInForce owner = db.limitInForce owner := by
  simp only [limitInForce, findLimit, quotaRow?, h]

/-- The owner has stored no more than the limit that applies. -/
def Within (db : Database) (owner : String) : Prop :=
  ∃ limit, db.limitInForce owner = .ok limit ∧
    ∀ count ∈ limit.bytes?, db.bytes owner ≤ count.toNat

end Database

/-! ### Bounded sums -/

/-- A sum in 64 bits is the exact sum, or the greatest count if that is less. -/
lemma toNat_foldl_addBounded (l : List UInt64) (a : UInt64) :
    (l.foldl addBounded a).toNat = min (a.toNat + (l.map UInt64.toNat).sum) (UInt64.size - 1) := by
  induction l generalizing a with
  | nil =>
      have ha := a.toNat_lt_size
      simp only [List.foldl_nil, List.map_nil, List.sum_nil, Nat.add_zero]
      omega
  | cons b l ih =>
      rw [List.foldl_cons, ih, toNat_addBounded, List.map_cons, List.sum_cons]
      omega

/-- A limit below `2^63` admits bytes beside a bounded sum exactly if they fit beside the exact
one. -/
lemma admits_iff {used requested count : UInt64} {n : ℕ}
    (hused : used.toNat = min n (UInt64.size - 1)) (hcount : count.toNat < columnBound) :
    (Limit.bytes count).admits used requested = true ↔ n + requested.toNat ≤ count.toNat := by
  have hbound : columnBound < UInt64.size - 1 := by decide
  rw [Limit.admits, decide_eq_true_iff, UInt64.le_iff_toNat_le, toNat_addBounded, hused]
  omega

end FilterStore
