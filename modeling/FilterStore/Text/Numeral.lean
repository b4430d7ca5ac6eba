/-!
Decimal numerals of unsigned 64-bit integers.

* **Writing.** `decimal n` is the shortest decimal text of `n`, and `padded w n` the same with zeros
  in front up to the width `w`.
* **Reading.** `readUnsigned` reads an optional plus sign and one or more ASCII digits, any number
  of leading zeros, up to `2^64 - 1`. Of two faults the one further left is reported, because the
  digits are taken from the left and the value is bounded after each of them.
-/

namespace FilterStore.Numeral

/-! ### Writing -/

/-- The decimal digits of a number, without leading zeros. -/
def decimal (n : Nat) : List Char :=
  Nat.toDigits 10 n

/-- The decimal digits of a number, with zeros in front up to a width. -/
def padded (width n : Nat) : List Char :=
  List.replicate (width - (decimal n).length) '0' ++ decimal n

/-- The text of a number is its digits. -/
theorem toString_eq_decimal (n : Nat) : toString n = String.ofList (decimal n) :=
  Nat.toString_eq_ofList_toDigits

/-- Every character of a decimal text is a digit. -/
theorem isDigit_of_mem_decimal {n : Nat} {c : Char} (h : c ∈ decimal n) : c.isDigit = true :=
  Nat.isDigit_of_mem_toDigits (by decide) (by decide) h

/-- A decimal text has at least one digit. -/
theorem decimal_ne_nil (n : Nat) : decimal n ≠ [] :=
  Nat.toDigits_ne_nil

/-! ### Reading -/

/-- The value of a sequence of digits, and `0` of none. -/
def value (digits : List Char) : Nat :=
  Nat.ofDigitChars 10 digits 0

/-- The digits of a number have its value. -/
theorem value_decimal (n : Nat) : value (decimal n) = n :=
  Nat.ofDigitChars_ten_toDigits

/-- Zeros in front do not change the value. -/
theorem value_padded (width n : Nat) : value (padded width n) = n := by
  simp [value, padded, Nat.ofDigitChars_append, Nat.ofDigitChars_replicate_zero, decimal,
    Nat.ofDigitChars_ten_toDigits]

/-- Why a text is not an unsigned 64-bit integer. -/
inductive Fault where
  /-- The text has no character. -/
  | empty
  /-- A character is not a digit, or there is a sign and nothing else. -/
  | badDigit
  /-- The value is above `2^64 - 1`. -/
  | tooLarge
  deriving DecidableEq, Repr

/-- What is said about a text that is not an unsigned 64-bit integer. -/
def Fault.message : Fault → String
  | .empty => "cannot parse integer from empty string"
  | .badDigit => "invalid digit found in string"
  | .tooLarge => "number too large to fit in target type"

/-- The value of the digits behind a value already read, kept below `2^64` at each digit. -/
def readDigits (acc : Nat) : List Char → Except Fault Nat
  | [] => .ok acc
  | c :: cs =>
    if c.isDigit then
      let next := 10 * acc + (c.toNat - '0'.toNat)
      if next < UInt64.size then readDigits next cs else .error .tooLarge
    else .error .badDigit

/-- Reads an unsigned 64-bit integer: an optional plus sign, then digits. -/
def readUnsigned : List Char → Except Fault UInt64
  | [] => .error .empty
  | ['+'] => .error .badDigit
  | '+' :: cs => UInt64.ofNat <$> readDigits 0 cs
  | cs => UInt64.ofNat <$> readDigits 0 cs

/-- Digits are read to their value exactly if it is below `2^64`. -/
theorem readDigits_eq_ok_iff {acc n : Nat} {cs : List Char} (hacc : acc < UInt64.size) :
    readDigits acc cs = .ok n ↔
      (∀ c ∈ cs, c.isDigit = true) ∧ n = Nat.ofDigitChars 10 cs acc ∧ n < UInt64.size := by
  induction cs generalizing acc with
  | nil =>
    simp only [readDigits, Except.ok.injEq, List.not_mem_nil, false_implies, implies_true,
      Nat.ofDigitChars_nil, true_and]
    constructor
    · rintro rfl
      exact ⟨rfl, hacc⟩
    · rintro ⟨rfl, -⟩
      rfl
  | cons c cs ih =>
    have grow : ∀ (l : List Char) (m : Nat), m ≤ Nat.ofDigitChars 10 l m := by
      intro l m
      rw [Nat.ofDigitChars_eq_ofDigitChars_zero]
      exact Nat.le_trans (Nat.le_mul_of_pos_left m (Nat.pow_pos (by decide)))
        (Nat.le_add_right _ _)
    rw [readDigits, Nat.ofDigitChars_cons]
    by_cases hc : c.isDigit = true
    · rw [if_pos hc]
      by_cases hn : 10 * acc + (c.toNat - '0'.toNat) < UInt64.size
      · simp only [hn, if_true]
        rw [ih hn]
        simp [hc]
      · simp only [hn, if_false, reduceCtorEq, false_iff, not_and]
        rintro - rfl hlt
        exact hn (Nat.lt_of_le_of_lt (grow cs _) hlt)
    · rw [if_neg hc]
      simp [hc]

end FilterStore.Numeral
