import Mathlib.Tactic
import FilterStore.Proofs.Time.RoundTrip
import FilterStore.Store.Database

/-!
Scripts and limits against the rows that hold them.

* **Columns.** A stored number reads as `n` exactly if it is `n` as a signed number and `n` is below
  `2^63` (`ofColumn?_eq_some_iff`).
* **Scripts.** `Script.stored` is the row of a script, and a script has one exactly if it is
  `Storable` (`Script.row_eq`). `ScriptRow.Shows` says column by column what it means to read a row
  as a script (`script_eq_ok_iff`), and a row that cannot be read is `Unreadable`
  (`script_eq_error_iff`).
* **Back and forth.** A stored script is read back if its mark agrees with its date and the date
  `Survives` being written (`script_stored`), which all dates of the years 0 to 9999 do.
* **Exact sizes.** A row or script is `Exact` if its size is the length of its content.
* **Limits.** The same for quota rows: `Limit.stored`, `meaning_stored`, `meaning_eq_error_iff`.
-/

namespace FilterStore

/-! ### Columns -/

/-- A number that fits a column keeps its value as a signed number. -/
lemma toInt_toInt64 {n : UInt64} (h : n.toNat < columnBound) : n.toInt64.toInt = n.toNat := by
  rw [← UInt64.ofNat_toNat (x := n), UInt64.toInt64_ofNat', Int64.toInt_ofNat_of_lt h,
    UInt64.ofNat_toNat]

lemma column?_of_lt {n : UInt64} (h : n.toNat < columnBound) : column? n = some n.toInt64 :=
  if_pos h

lemma column?_of_ge {n : UInt64} (h : columnBound ≤ n.toNat) : column? n = none :=
  if_neg (Nat.not_lt.mpr h)

/-- A stored number reads as `n` exactly if `n` fits a column and is what is stored. -/
lemma ofColumn?_eq_some_iff {i : Int64} {n : UInt64} :
    ofColumn? i = some n ↔ n.toNat < columnBound ∧ i = n.toInt64 := by
  constructor
  · intro h
    rw [ofColumn?] at h
    split at h
    · cases h
    next hi =>
      cases h
      have hle : 0 ≤ i := by
        rw [Int64.le_iff_toInt_le]
        rw [Int64.lt_iff_toInt_lt] at hi
        omega
      refine ⟨?_, (Int64.toInt64_toUInt64 i).symm⟩
      rw [Int64.toNat_toUInt64_of_le hle]
      exact Int64.toNatClampNeg_lt i
  · rintro ⟨hn, rfl⟩
    exact ofColumn?_column? (column?_of_lt hn)

/-- The stored numbers that cannot be read are the negative ones. -/
lemma ofColumn?_eq_none_iff {i : Int64} : ofColumn? i = none ↔ i < 0 := by
  rw [ofColumn?]
  split
  next h => simp [h]
  next h => simp [h]

/-- The fault is that of a row that cannot be read, and not of a broken rule of the tables. -/
def StorageFault.OfReading : StorageFault → Prop
  | .negativeSize | .negativeLimit | .unreadableDate _ => True
  | .secondActive | .duplicateScript | .duplicateQuota | .dateWithoutMark | .access _ => False

/-! ### Dates -/

/-- The stored form of an instant reads as the instant. -/
def Instant.Survives (t : Instant) : Prop :=
  Timestamp.read (Timestamp.write t) = .ok t

lemma Instant.HasPlainYear.survives {t : Instant} (h : t.HasPlainYear) : t.Survives :=
  Timestamp.read_write h

/-! ### Scripts -/

namespace Script

/-- The size of the script fits its column. -/
def Storable (s : Script) : Prop :=
  s.size.toNat < columnBound

instance (s : Script) : Decidable s.Storable :=
  inferInstanceAs (Decidable (_ < _))

instance (s : Script) : Decidable s.Coherent :=
  inferInstanceAs (Decidable (_ = _))

/-- The row of a script. -/
def stored (s : Script) : ScriptRow :=
  ⟨s.owner, s.name, s.content, s.size.toInt64, if s.active then 1 else 0,
    s.activatedAt.map Timestamp.write⟩

@[simp] lemma stored_owner (s : Script) : s.stored.owner = s.owner := rfl

@[simp] lemma stored_name (s : Script) : s.stored.name = s.name := rfl

/-- A script is stored as its row if its size fits, and refused otherwise. -/
lemma row_eq (s : Script) :
    s.row = if s.Storable then .ok s.stored else .error (.scriptTooLarge s.name) := by
  by_cases h : s.Storable
  · rw [if_pos h, row, column?_of_lt h]
    rfl
  · rw [if_neg h, row, column?_of_ge (Nat.not_lt.mp h)]

/-- The row bears the mark of the script. -/
@[simp] lemma stored_marked (s : Script) : s.stored.Marked ↔ s.active = true := by
  rw [ScriptRow.Marked, stored]
  cases s.active <;> simp

/-- Mark and date of the row agree exactly if they agree in the script. -/
@[simp] lemma stored_coherent (s : Script) : s.stored.Coherent ↔ s.Coherent := by
  rw [ScriptRow.Coherent, stored_marked, Coherent, stored, Option.isSome_map]
  exact Bool.eq_iff_iff.symm

end Script

namespace ScriptRow

/-- The row reads as the script, column by column. -/
structure Shows (r : ScriptRow) (s : Script) : Prop where
  /-- The owner. -/
  owner : s.owner = r.owner
  /-- The name. -/
  name : s.name = r.name
  /-- The content. -/
  content : s.content = r.content
  /-- The size can be stored. -/
  storable : s.Storable
  /-- It is the stored size. -/
  size : r.size = s.size.toInt64
  /-- The date. -/
  date : r.readDate = .ok s.activatedAt
  /-- The mark is that there is a date. -/
  coherent : s.Coherent

/-- A row is read as a script exactly if it shows it. -/
theorem script_eq_ok_iff {r : ScriptRow} {s : Script} : r.script = .ok s ↔ r.Shows s := by
  rw [script, readSize]
  constructor
  · intro h
    cases hsize : ofColumn? r.size with
    | none => simp [hsize] at h
    | some n =>
        cases hdate : r.readDate with
        | error f => simp [hsize, hdate] at h
        | ok date =>
            simp only [hsize, hdate, Except.ok.injEq] at h
            subst h
            obtain ⟨hn, hi⟩ := ofColumn?_eq_some_iff.mp hsize
            exact ⟨rfl, rfl, rfl, hn, hi, hdate, rfl⟩
  · rintro ⟨ho, hn, hc, hs, hi, hd, ha⟩
    rw [ofColumn?_eq_some_iff.mpr ⟨hs, hi⟩]
    simp only [hd]
    cases s
    simp_all [Script.Coherent]

/-- A row has a date exactly if the script it shows has one. -/
lemma Shows.isSome_date {r : ScriptRow} {s : Script} (h : r.Shows s) :
    r.activatedAt.isSome = s.activatedAt.isSome := by
  have hd := h.date
  rw [readDate] at hd
  cases htext : r.activatedAt with
  | none =>
      rw [htext] at hd
      rw [← Except.ok.inj hd]
      rfl
  | some text =>
      rw [htext] at hd
      dsimp only at hd
      split at hd
      · rw [← Except.ok.inj hd]
        rfl
      · cases hd

/-- In a row whose mark agrees with its date, the mark is the script's. -/
lemma Shows.marked_iff {r : ScriptRow} {s : Script} (h : r.Shows s) (hr : r.Coherent) :
    r.Marked ↔ s.active = true := by
  have hsome : s.active = s.activatedAt.isSome := h.coherent
  rw [hsome, ← h.isSome_date]
  exact hr

/-- A stored script is read back. -/
theorem script_stored {s : Script} (hs : s.Storable) (hc : s.Coherent)
    (hd : ∀ t ∈ s.activatedAt, t.Survives) : s.stored.script = .ok s := by
  refine script_eq_ok_iff.mpr ⟨rfl, rfl, rfl, hs, rfl, ?_, hc⟩
  rw [readDate, Script.stored]
  cases hdate : s.activatedAt with
  | none => rfl
  | some t =>
      have ht : Timestamp.read (Timestamp.write t) = .ok t := hd t hdate
      simp only [Option.map_some, ht]

/-- The row cannot be read: its size is negative, or it has a text in place of a date. -/
def Unreadable (r : ScriptRow) : Prop :=
  r.size < 0 ∨ ∃ text fault, r.activatedAt = some text ∧ Timestamp.read text = .error fault

/-- Reading fails exactly on the unreadable rows. -/
theorem script_eq_error_iff {r : ScriptRow} : (∃ f, r.script = .error f) ↔ r.Unreadable := by
  rw [script, readSize, readDate, Unreadable]
  cases hsize : ofColumn? r.size with
  | none => simp [ofColumn?_eq_none_iff.mp hsize]
  | some n =>
      have hpos : ¬ r.size < 0 := by
        rw [← ofColumn?_eq_none_iff, hsize]
        exact Option.some_ne_none n
      cases htext : r.activatedAt with
      | none => simp [hpos]
      | some text =>
          cases hread : Timestamp.read text with
          | ok t => simp [hpos, hread]
          | error fault => simp [hread]

/-- What is wrong with a row that cannot be read lies in the row. -/
lemma ofReading_of_script {r : ScriptRow} {f : StorageFault} (h : r.script = .error f) :
    f.OfReading := by
  rw [script, readSize, readDate] at h
  split at h
  next hsize =>
    cases hcol : ofColumn? r.size with
    | none =>
        simp only [hcol, Except.error.injEq] at hsize
        rw [← Except.error.inj h, ← hsize]
        trivial
    | some n => simp [hcol] at hsize
  next =>
    split at h
    next hdate =>
      split at hdate
      · cases hdate
      · split at hdate
        · cases hdate
        · rw [← Except.error.inj h, ← Except.error.inj hdate]
          trivial
    next => cases h

end ScriptRow

/-! ### Exact sizes -/

/-- The size of the row is the length of its content. -/
def ScriptRow.Exact (r : ScriptRow) : Prop :=
  r.size.toInt = r.content.utf8ByteSize

/-- The size of the script is the length of its content and fits its column. -/
structure Script.Exact (s : Script) : Prop where
  /-- The size fits the column. -/
  storable : s.Storable
  /-- It is the length of the content. -/
  size : s.size.toNat = s.content.utf8ByteSize

lemma Script.Exact.stored {s : Script} (h : s.Exact) : s.stored.Exact := by
  rw [ScriptRow.Exact, Script.stored, toInt_toInt64 h.storable, h.size]

lemma ScriptRow.Shows.exact {r : ScriptRow} {s : Script} (hs : r.Shows s) (h : r.Exact) :
    s.Exact := by
  rw [ScriptRow.Exact, hs.size, toInt_toInt64 hs.storable, ← hs.content] at h
  exact ⟨hs.storable, Int.ofNat.inj h⟩

/-! ### Limits -/

namespace Limit

/-- The limit fits its column. -/
def Storable (limit : Limit) : Prop :=
  ∀ count ∈ limit.bytes?, count.toNat < columnBound

/-- The row of a limit. -/
def stored (limit : Limit) (key : QuotaKey) : QuotaRow :=
  ⟨key.storageKey, limit.bytes?.map UInt64.toInt64⟩

lemma row_of_storable {limit : Limit} (h : limit.Storable) (key : QuotaKey) :
    limit.row key = .ok (limit.stored key) := by
  cases limit with
  | unlimited => rfl
  | bytes count =>
      rw [row, column?_of_lt (h count rfl)]
      rfl

lemma row_of_ge {count : UInt64} (h : columnBound ≤ count.toNat) (key : QuotaKey) :
    (Limit.bytes count).row key = .error (.limitTooLarge count) := by
  rw [row, column?_of_ge h]

/-- Every limit fits its column or is a number too large for it. -/
lemma storable_or (limit : Limit) :
    limit.Storable ∨ ∃ count, limit = .bytes count ∧ columnBound ≤ count.toNat := by
  cases limit with
  | unlimited => exact .inl fun _ h => nomatch h
  | bytes count =>
      rcases Nat.lt_or_ge count.toNat columnBound with h | h
      · exact .inl fun _ hc => Option.some.inj hc ▸ h
      · exact .inr ⟨count, rfl, h⟩

/-- A stored limit is read back. -/
lemma meaning_stored {limit : Limit} (h : limit.Storable) (key : QuotaKey) :
    (limit.stored key).meaning = .ok limit :=
  QuotaRow.meaning_of_row (row_of_storable h key)

end Limit

namespace QuotaRow

/-- The row cannot be read: its limit is negative. -/
def Unreadable (r : QuotaRow) : Prop :=
  ∃ i, r.limit = some i ∧ i < 0

/-- Reading fails exactly on the unreadable rows, and the limit is what is wrong. -/
theorem meaning_eq_error_iff {r : QuotaRow} {f : StorageFault} :
    r.meaning = .error f ↔ r.Unreadable ∧ f = .negativeLimit := by
  rw [meaning, Unreadable]
  cases hlimit : r.limit with
  | none => simp
  | some i =>
      cases hcol : ofColumn? i with
      | none => simp [hcol, ofColumn?_eq_none_iff.mp hcol, eq_comm]
      | some n =>
          have hpos : ¬ i < 0 := by
            rw [← ofColumn?_eq_none_iff, hcol]
            exact Option.some_ne_none n
          simp [hcol, hpos]

/-- A limit that is read is below `2^63`. -/
lemma lt_columnBound_of_meaning {r : QuotaRow} {count : UInt64} (h : r.meaning = .ok (.bytes count)) :
    count.toNat < columnBound := by
  rw [meaning] at h
  split at h
  · cases h
  · split at h
    next hcol =>
      cases h
      exact (ofColumn?_eq_some_iff.mp hcol).1
    next => cases h

end QuotaRow

end FilterStore
