import FilterStore.Failure
import FilterStore.Script
import FilterStore.Store.Table
import FilterStore.Time.Timestamp

/-!
The rows of the database and what they mean.

* **Columns.** Integers are stored with sign in 64 bits. `column?` stores an unsigned number below
  `2^63`, `ofColumn?` reads a stored number that is not negative, and reading undoes storing
  (`ofColumn?_column?`).
* **Rows.** A `ScriptRow` is a row of the table of scripts, ordered by owner and name; a `QuotaRow`
  is one of the table of quotas, ordered by key. Rows may hold values that the library never
  writes.
* **Meaning.** `ScriptRow.script` and `QuotaRow.meaning` read a row and fail on a negative number
  or, behind it, on a text that is no date. A script counts as active if its row has a date.
  `Script.row` is the row that a script is stored as.
-/

namespace FilterStore

/-! ### Columns -/

/-- The first number that does not fit a column: 2 to the 63rd. It is the only bound on stored values
here. That the database engine refuses a text or a row of more than 10^9 bytes in a default build of
SQLite, and its other limits on resources, are left out. -/
def columnBound : Nat := 9223372036854775808

/-- The stored form of an unsigned number, if it fits. -/
def column? (n : UInt64) : Option Int64 :=
  if n.toNat < columnBound then some n.toInt64 else none

/-- The unsigned number that is stored, if it is one. -/
def ofColumn? (i : Int64) : Option UInt64 :=
  if i < 0 then none else some i.toUInt64

/-- What is stored is read back. -/
theorem ofColumn?_column? {n : UInt64} {i : Int64} (h : column? n = some i) :
    ofColumn? i = some n := by
  unfold column? at h
  split at h
  next hn =>
    cases h
    have pos : ¬ n.toInt64 < 0 := by
      have value : n.toInt64.toInt = n.toNat := by
        rw [← UInt64.ofNat_toNat (x := n), UInt64.toInt64_ofNat', Int64.toInt_ofNat_of_lt hn,
          UInt64.ofNat_toNat]
      rw [Int64.lt_iff_toInt_lt, value, Int64.toInt_zero]
      omega
    simp [ofColumn?, pos]
  next => cases h

/-! ### Rows -/

/-- What identifies a script: its owner and its name. -/
structure ScriptKey where
  /-- Whose script it is. -/
  owner : String
  /-- The name among the owner's scripts. -/
  name : String
  deriving DecidableEq, Repr

/-- Scripts are ordered by owner, and those of one owner by name. -/
instance : KeyOrder ScriptKey where
  precedes k l :=
    Text.precedes k.owner l.owner || (k.owner = l.owner && Text.precedes k.name l.name)
  irrefl k := by simp [Text.precedes_irrefl]
  trans {k l m} h₁ h₂ := by
    simp only [Bool.or_eq_true, Bool.and_eq_true, decide_eq_true_eq] at h₁ h₂ ⊢
    rcases h₁ with h₁ | ⟨h₁, h₁'⟩ <;> rcases h₂ with h₂ | ⟨h₂, h₂'⟩
    · exact .inl (Text.precedes_trans h₁ h₂)
    · exact .inl (h₂ ▸ h₁)
    · exact .inl (h₁ ▸ h₂)
    · exact .inr ⟨h₁.trans h₂, Text.precedes_trans h₁' h₂'⟩
  total {k l} h := by
    simp only [Bool.or_eq_true, Bool.and_eq_true, decide_eq_true_eq]
    by_cases ho : k.owner = l.owner
    · have hn : k.name ≠ l.name := by
        intro hn
        cases k
        cases l
        exact h (by simp_all)
      rcases Text.precedes_total hn with h' | h'
      · exact .inl (.inr ⟨ho, h'⟩)
      · exact .inr (.inr ⟨ho.symm, h'⟩)
    · rcases Text.precedes_total ho with h' | h'
      · exact .inl (.inl h')
      · exact .inr (.inl h')

/-- A row of the table of scripts. -/
structure ScriptRow where
  /-- Whose script it is. -/
  owner : String
  /-- The name of the script. -/
  name : String
  /-- The text of the script. -/
  content : String
  /-- The size in bytes. -/
  size : Int64
  /-- The mark of the active script, which is 1. -/
  active : Int64
  /-- The date of activation as text. -/
  activatedAt : Option String
  deriving DecidableEq, Repr

/-- A row of the table of quotas. -/
structure QuotaRow where
  /-- The key of the entry. -/
  key : String
  /-- The greatest number of bytes, or nothing for no limit. -/
  limit : Option Int64
  deriving DecidableEq, Repr

instance : Keyed ScriptRow ScriptKey where
  key r := ⟨r.owner, r.name⟩

instance : Keyed QuotaRow String where
  key r := r.key

@[simp] theorem ScriptRow.key_eq (r : ScriptRow) : Keyed.key r = ScriptKey.mk r.owner r.name :=
  rfl

@[simp] theorem QuotaRow.key_eq (r : QuotaRow) : Keyed.key r = r.key :=
  rfl

/-! ### Meaning -/

namespace ScriptRow

/-- Whether the row bears the mark of the active script. -/
def Marked (r : ScriptRow) : Prop :=
  r.active = 1

instance (r : ScriptRow) : Decidable r.Marked :=
  inferInstanceAs (Decidable (_ = _))

/-- The row is marked exactly if it has a date. -/
def Coherent (r : ScriptRow) : Prop :=
  r.Marked ↔ r.activatedAt.isSome = true

instance (r : ScriptRow) : Decidable r.Coherent :=
  inferInstanceAs (Decidable (_ ↔ _))

/-- Reads the size of a row. -/
def readSize (r : ScriptRow) : Except StorageFault UInt64 :=
  match ofColumn? r.size with
  | some size => .ok size
  | none => .error .negativeSize

/-- Reads the date of a row, if there is one. -/
def readDate (r : ScriptRow) : Except StorageFault (Option Instant) :=
  match r.activatedAt with
  | none => .ok none
  | some text =>
    match Timestamp.read text with
    | .ok t => .ok (some t)
    | .error fault => .error (.unreadableDate fault)

/-- Reads a row: the size first, then the date. A script with a date is active. -/
def script (r : ScriptRow) : Except StorageFault Script :=
  match r.readSize with
  | .error fault => .error fault
  | .ok size =>
    match r.readDate with
    | .error fault => .error fault
    | .ok date => .ok ⟨r.owner, r.name, r.content, size, date.isSome, date⟩

/-- The row can be read. -/
def Readable (r : ScriptRow) : Prop :=
  ∃ s, r.script = .ok s

end ScriptRow

namespace QuotaRow

/-- Reads a row. -/
def meaning (r : QuotaRow) : Except StorageFault Limit :=
  match r.limit with
  | none => .ok .unlimited
  | some i =>
    match ofColumn? i with
    | some count => .ok (.bytes count)
    | none => .error .negativeLimit

/-- The row can be read. -/
def Readable (r : QuotaRow) : Prop :=
  ∃ limit, r.meaning = .ok limit

end QuotaRow

/-! ### Storing -/

/-- The row that a script is stored as. -/
def Script.row (s : Script) : Except Failure ScriptRow :=
  match column? s.size with
  | some size =>
    .ok ⟨s.owner, s.name, s.content, size, if s.active then 1 else 0,
      s.activatedAt.map Timestamp.write⟩
  | none => .error (.scriptTooLarge s.name)

/-- The row that a limit is stored as. -/
def Limit.row (limit : Limit) (key : QuotaKey) : Except Failure QuotaRow :=
  match limit with
  | .unlimited => .ok ⟨key.storageKey, none⟩
  | .bytes count =>
    match column? count with
    | some i => .ok ⟨key.storageKey, some i⟩
    | none => .error (.limitTooLarge count)

/-- A stored limit is read back. -/
theorem QuotaRow.meaning_of_row {limit : Limit} {key : QuotaKey} {r : QuotaRow}
    (h : limit.row key = .ok r) : r.meaning = .ok limit := by
  unfold Limit.row at h
  split at h
  · cases h
    rfl
  · split at h
    next hc =>
      cases h
      simp [QuotaRow.meaning, ofColumn?_column? hc]
    next => cases h

end FilterStore
