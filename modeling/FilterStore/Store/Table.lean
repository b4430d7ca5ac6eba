import FilterStore.Text.ByteOrder

/-!
Tables: lists of rows, ordered by a key that no two rows share.

* **Keys.** `KeyOrder` is a strict total order on keys, `Keyed` gives each row its key.
* **Operations.** `find?` looks a key up, `put` inserts a row at its place or replaces the row of its
  key, `erase` takes the row of a key out.
* **Order.** `Sorted` says that keys increase strictly; `put` and `erase` keep it (`Sorted.put`,
  `Sorted.erase`).
* **The view.** In a sorted table `find?` sees each row (`find?_eq_some_iff`), the operations are
  what their names say (`find?_put`, `find?_erase`), and tables that look alike are equal
  (`eq_of_find?_eq`).
-/

namespace FilterStore

/-- A strict total order on keys. -/
class KeyOrder (κ : Type) where
  /-- Whether one key comes before another. -/
  precedes : κ → κ → Bool
  /-- No key comes before itself. -/
  irrefl : ∀ k, precedes k k = false
  /-- What comes before something that comes before `m` comes before `m`. -/
  trans : ∀ {k l m}, precedes k l = true → precedes l m = true → precedes k m = true
  /-- Of two different keys one comes first. -/
  total : ∀ {k l}, k ≠ l → precedes k l = true ∨ precedes l k = true

/-- Rows with a key. -/
class Keyed (α : Type) (κ : outParam Type) where
  /-- The key of a row. -/
  key : α → κ

/-- Texts are ordered by their bytes. -/
instance : KeyOrder String where
  precedes := Text.precedes
  irrefl := Text.precedes_irrefl
  trans := Text.precedes_trans
  total := Text.precedes_total

namespace Table

open KeyOrder Keyed

variable {α κ : Type} [Keyed α κ] [DecidableEq κ]

/-! ### Operations -/

/-- The row of a key. -/
def find? (k : κ) (t : List α) : Option α :=
  List.find? (fun r => key r = k) t

/-- The table without the row of a key. -/
def erase (k : κ) (t : List α) : List α :=
  t.filter fun r => key r ≠ k

variable [KeyOrder κ]

/-- The table with a row at its place, instead of a row of the same key if there is one. -/
def put (row : α) : List α → List α
  | [] => [row]
  | r :: rest =>
    if precedes (key row) (key r) then row :: r :: rest
    else if key r = key row then row :: rest
    else r :: put row rest

/-- Keys increase strictly along the table. -/
def Sorted (t : List α) : Prop :=
  t.Pairwise fun a b => precedes (key a) (key b) = true

/-! ### Order -/

omit [DecidableEq κ] in
theorem sorted_nil : Sorted ([] : List α) :=
  List.Pairwise.nil

/-- The rows after a put are the new row and the old rows of other keys. -/
theorem mem_put {row r : α} {t : List α} (h : Sorted t) :
    r ∈ put row t ↔ r = row ∨ r ∈ t ∧ key r ≠ key row := by
  induction t with
  | nil => simp [put]
  | cons a t ih =>
    obtain ⟨ha, ht⟩ := List.pairwise_cons.1 h
    unfold put
    split
    next hlt =>
      have far : ∀ b ∈ a :: t, key b ≠ key row := by
        intro b hb hkey
        have hab : precedes (key row) (key b) = true := by
          rcases List.mem_cons.1 hb with rfl | hb
          · exact hlt
          · exact KeyOrder.trans hlt (ha b hb)
        rw [hkey, KeyOrder.irrefl] at hab
        cases hab
      constructor
      · intro hr
        rcases List.mem_cons.1 hr with rfl | hr
        · exact .inl rfl
        · exact .inr ⟨hr, far r hr⟩
      · rintro (rfl | ⟨hr, -⟩)
        · exact List.mem_cons_self
        · exact List.mem_cons_of_mem _ hr
    next hlt =>
      split
      next heq =>
        have far : ∀ b ∈ t, key b ≠ key row := by
          intro b hb hkey
          have hab := ha b hb
          rw [hkey, heq, KeyOrder.irrefl] at hab
          cases hab
        constructor
        · intro hr
          rcases List.mem_cons.1 hr with rfl | hr
          · exact .inl rfl
          · exact .inr ⟨List.mem_cons_of_mem _ hr, far r hr⟩
        · rintro (rfl | ⟨hr, hne⟩)
          · exact List.mem_cons_self
          · rcases List.mem_cons.1 hr with rfl | hr
            · exact absurd heq hne
            · exact List.mem_cons_of_mem _ hr
      next hne =>
        rw [List.mem_cons, ih ht, List.mem_cons]
        constructor
        · rintro (rfl | rfl | ⟨hr, hk⟩)
          · exact .inr ⟨.inl rfl, hne⟩
          · exact .inl rfl
          · exact .inr ⟨.inr hr, hk⟩
        · rintro (rfl | ⟨rfl | hr, hk⟩)
          · exact .inr (.inl rfl)
          · exact .inl rfl
          · exact .inr (.inr ⟨hr, hk⟩)

omit [KeyOrder κ] in
/-- The rows after an erase are the old rows of other keys. -/
theorem mem_erase {k : κ} {r : α} {t : List α} : r ∈ erase k t ↔ r ∈ t ∧ key r ≠ k := by
  simp [erase]

/-- A put keeps the order. -/
theorem Sorted.put {row : α} {t : List α} (h : Sorted t) : Sorted (put row t) := by
  induction t with
  | nil => exact List.pairwise_singleton _ _
  | cons a t ih =>
    obtain ⟨ha, ht⟩ := List.pairwise_cons.1 h
    unfold Table.put
    split
    next hlt =>
      refine List.pairwise_cons.2 ⟨fun b hb => ?_, h⟩
      rcases List.mem_cons.1 hb with rfl | hb
      · exact hlt
      · exact KeyOrder.trans hlt (ha b hb)
    next hlt =>
      split
      next heq =>
        exact List.pairwise_cons.2 ⟨fun b hb => heq ▸ ha b hb, ht⟩
      next hne =>
        refine List.pairwise_cons.2 ⟨fun b hb => ?_, ih ht⟩
        rcases (mem_put ht).1 hb with rfl | ⟨hb, -⟩
        · exact (KeyOrder.total hne).resolve_right hlt
        · exact ha b hb

/-- An erase keeps the order. -/
theorem Sorted.erase {k : κ} {t : List α} (h : Sorted t) : Sorted (erase k t) :=
  h.filter _

/-! ### The view -/

omit [DecidableEq κ] in
/-- No two rows of a sorted table share a key. -/
theorem Sorted.eq_of_key_eq {t : List α} (h : Sorted t) {a b : α} (ha : a ∈ t) (hb : b ∈ t)
    (hk : key a = key b) : a = b := by
  induction t with
  | nil => cases ha
  | cons c t ih =>
    obtain ⟨hc, ht⟩ := List.pairwise_cons.1 h
    rcases List.mem_cons.1 ha with hac | hat <;> rcases List.mem_cons.1 hb with hbc | hbt
    · exact hac.trans hbc.symm
    · have := hc b hbt
      rw [← hac, hk, KeyOrder.irrefl] at this
      cases this
    · have := hc a hat
      rw [← hbc, hk, KeyOrder.irrefl] at this
      cases this
    · exact ih ht hat hbt

/-- In a sorted table the row of a key is found. -/
theorem find?_eq_some_iff {k : κ} {r : α} {t : List α} (h : Sorted t) :
    find? k t = some r ↔ r ∈ t ∧ key r = k := by
  constructor
  · intro hf
    exact ⟨List.mem_of_find?_eq_some hf, by simpa using List.find?_some hf⟩
  · rintro ⟨hr, hk⟩
    cases hf : find? k t with
    | none =>
      have := List.find?_eq_none.1 hf r hr
      simp [hk] at this
    | some s =>
      have hs := List.mem_of_find?_eq_some hf
      have hks : key s = k := by simpa using List.find?_some hf
      rw [h.eq_of_key_eq hs hr (hks.trans hk.symm)]

omit [KeyOrder κ] in
/-- A key is not found if no row has it. -/
theorem find?_eq_none_iff {k : κ} {t : List α} : find? k t = none ↔ ∀ r ∈ t, key r ≠ k := by
  simp [find?, List.find?_eq_none]

/-- After a put the key of the row finds the row, and other keys find what they found. -/
theorem find?_put {k : κ} {row : α} {t : List α} (h : Sorted t) :
    find? k (put row t) = if key row = k then some row else find? k t := by
  split
  next hk => exact (find?_eq_some_iff h.put).2 ⟨(mem_put h).2 (.inl rfl), hk⟩
  next hk =>
    apply Option.ext
    intro r
    rw [find?_eq_some_iff h.put, find?_eq_some_iff h, mem_put h]
    constructor
    · rintro ⟨rfl | ⟨hr, -⟩, hkr⟩
      · exact absurd hkr hk
      · exact ⟨hr, hkr⟩
    · rintro ⟨hr, hkr⟩
      exact ⟨.inr ⟨hr, fun e => hk (e.symm.trans hkr)⟩, hkr⟩

omit [KeyOrder κ] in
/-- After an erase the key finds nothing, and other keys find what they found. -/
theorem find?_erase {k l : κ} {t : List α} :
    find? k (erase l t) = if l = k then none else find? k t := by
  split
  next hk =>
    subst hk
    exact find?_eq_none_iff.2 fun r hr => (mem_erase.1 hr).2
  next hk =>
    induction t with
    | nil => rfl
    | cons a t ih =>
      by_cases hl : key a = l
      · have ha : key a ≠ k := fun e => hk (hl.symm.trans e)
        simp only [erase, find?] at ih ⊢
        rw [List.filter_cons_of_neg (by simp [hl]), ih, List.find?_cons_of_neg (by simp [ha])]
      · simp only [erase, find?] at ih ⊢
        rw [List.filter_cons_of_pos (by simp [hl])]
        by_cases ha : key a = k
        · rw [List.find?_cons_of_pos (by simp [ha]), List.find?_cons_of_pos (by simp [ha])]
        · rw [List.find?_cons_of_neg (by simp [ha]), List.find?_cons_of_neg (by simp [ha]), ih]

/-- Sorted tables in which every key finds the same are equal. -/
theorem eq_of_find?_eq {t u : List α} (ht : Sorted t) (hu : Sorted u)
    (h : ∀ k, find? k t = find? k u) : t = u := by
  have same : ∀ r, r ∈ t ↔ r ∈ u := by
    intro r
    have := h (key r)
    constructor
    · intro hr
      exact ((find?_eq_some_iff hu).1 (this ▸ (find?_eq_some_iff ht).2 ⟨hr, rfl⟩)).1
    · intro hr
      exact ((find?_eq_some_iff ht).1 (this.symm ▸ (find?_eq_some_iff hu).2 ⟨hr, rfl⟩)).1
  clear h
  induction t generalizing u with
  | nil =>
    cases u with
    | nil => rfl
    | cons b u => exact absurd ((same b).2 List.mem_cons_self) (by simp)
  | cons a t ih =>
    cases u with
    | nil => exact absurd ((same a).1 List.mem_cons_self) (by simp)
    | cons b u =>
      obtain ⟨ha, ht'⟩ := List.pairwise_cons.1 ht
      obtain ⟨hb, hu'⟩ := List.pairwise_cons.1 hu
      have hab : a = b := by
        rcases List.mem_cons.1 ((same a).1 List.mem_cons_self) with e | hau
        · exact e
        · rcases List.mem_cons.1 ((same b).2 List.mem_cons_self) with e | hbt
          · exact e.symm
          · have := KeyOrder.trans (ha b hbt) (hb a hau)
            rw [KeyOrder.irrefl] at this
            cases this
      subst hab
      congr 1
      refine ih ht' hu' fun r => ?_
      have := same r
      simp only [List.mem_cons] at this
      constructor
      · intro hr
        rcases this.1 (.inr hr) with rfl | h
        · have := ha r hr
          rw [KeyOrder.irrefl] at this
          cases this
        · exact h
      · intro hr
        rcases this.2 (.inr hr) with rfl | h
        · have := hb r hr
          rw [KeyOrder.irrefl] at this
          cases this
        · exact h

end Table

end FilterStore
