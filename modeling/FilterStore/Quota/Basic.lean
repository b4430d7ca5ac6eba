/-!
Storage limits and the arithmetic of quotas.

* **Limits.** A `Limit` is a number of bytes or no limit at all.
* **Keys.** A `QuotaKey` names an owner's own entry or the default entry, which applies to owners
  without one. Both live in one table: the default entry is stored under the empty text, which is
  no owner's name (`storageKey_inj` on proper keys).
* **The verdict.** `effectiveLimit` is the owner's entry, else the default, else unlimited.
  `admits` compares the sum of used and requested bytes with the limit, and a sum that would not
  fit 64 bits counts as the greatest number that does (`toNat_addBounded`).
-/

namespace FilterStore

/-! ### Limits -/

/-- A limit on the bytes that an owner may store. -/
inductive Limit where
  /-- Any number of bytes. -/
  | unlimited
  /-- At most so many bytes. -/
  | bytes (count : UInt64)
  deriving DecidableEq, Repr

namespace Limit

/-- The greatest number of bytes, if there is one. -/
def bytes? : Limit → Option UInt64
  | .unlimited => none
  | .bytes count => some count

/-- The limit with the given greatest number of bytes. -/
def ofBytes? : Option UInt64 → Limit
  | none => .unlimited
  | some count => .bytes count

@[simp] theorem ofBytes?_bytes? (limit : Limit) : ofBytes? limit.bytes? = limit := by
  cases limit <;> rfl

@[simp] theorem bytes?_ofBytes? (count : Option UInt64) : (ofBytes? count).bytes? = count := by
  cases count <;> rfl

/-- Whether there is no limit. -/
def isUnlimited : Limit → Bool
  | .unlimited => true
  | .bytes _ => false

/-- The text of a limit: a decimal number of bytes or the word `unlimited`. -/
def text : Limit → String
  | .unlimited => "unlimited"
  | .bytes count => toString count.toNat

end Limit

/-! ### Keys -/

/-- Which quota entry is meant. -/
inductive QuotaKey where
  /-- The entry for all owners without one of their own. -/
  | default
  /-- The entry of one owner. -/
  | owner (name : String)
  deriving DecidableEq, Repr

namespace QuotaKey

/-- The text under which an entry is stored. -/
def storageKey : QuotaKey → String
  | .default => ""
  | .owner name => name

/-- How an entry is called in messages. -/
def text : QuotaKey → String
  | .default => "default quota"
  | .owner name => "quota for " ++ name

/-- Keys of named owners and the default key are stored under different texts. -/
theorem storageKey_inj {k l : QuotaKey} (hk : k ≠ .owner "") (hl : l ≠ .owner "") :
    k.storageKey = l.storageKey ↔ k = l := by
  cases k <;> cases l <;> simp_all [storageKey, eq_comm]

end QuotaKey

/-! ### The verdict -/

/-- The limit in force for an owner: their own entry, else the default entry, else none. -/
def effectiveLimit (own default : Option Limit) : Limit :=
  (own <|> default).getD .unlimited

/-- The greatest number of bytes that 64 bits hold. -/
def greatestCount : UInt64 :=
  .ofNat (UInt64.size - 1)

/-- The sum of two numbers of bytes, and the greatest 64-bit number if the sum is above it. -/
def addBounded (a b : UInt64) : UInt64 :=
  if a.toNat + b.toNat < UInt64.size then a + b else greatestCount

theorem toNat_greatestCount : greatestCount.toNat = UInt64.size - 1 :=
  rfl

/-- The bounded sum is the smaller of the sum and `2^64 - 1`. -/
theorem toNat_addBounded (a b : UInt64) :
    (addBounded a b).toNat = min (a.toNat + b.toNat) (UInt64.size - 1) := by
  unfold addBounded
  split
  next h =>
    rw [UInt64.toNat_add, Nat.mod_eq_of_lt h, Nat.min_eq_left (Nat.le_sub_one_of_lt h)]
  next h =>
    rw [toNat_greatestCount, Nat.min_eq_right]
    exact Nat.le_trans (Nat.sub_le _ _) (Nat.le_of_not_lt h)

/-- Whether `requested` more bytes fit beside `used` ones. -/
def Limit.admits (limit : Limit) (used requested : UInt64) : Bool :=
  match limit with
  | .unlimited => true
  | .bytes count => addBounded used requested ≤ count

end FilterStore
