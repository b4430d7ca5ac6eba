import Mathlib.Tactic
import FilterStore.Text.Blank
import FilterStore.Text.Numeral

/-!
Digits and their values.

* **Runs.** Characters of a kind in front of a text that goes on with another kind are all that is
  taken of this kind (`Text.takeWhile_run`, `Text.dropWhile_run`).
* **Values.** The value of digits is below the power of ten of their number (`value_lt`), and as many
  digits of the same value are the same digits (`eq_of_value`).
* **Fixed width.** A number that fits a width is padded to exactly this width (`length_padded`), and
  every run of digits is the padded form of its value (`padded_value`).
* **No zeros in front.** The digits of a number other than zero do not begin with one
  (`head?_decimal`).
* **Numerals.** `Denotes` is the grammar of unsigned numerals: an optional plus sign and one or more
  digits. Exactly these are read, as far as their value is below `2^64`
  (`readUnsigned_eq_ok_iff`).
-/

namespace FilterStore

/-! ### Runs -/

namespace Text

variable {p : Char → Bool} {run rest : List Char}

/-- A run of characters is taken whole where none of its kind follows. -/
lemma takeWhile_run (hrun : ∀ c ∈ run, p c = true) (hr : ∀ c ∈ rest.head?, p c = false) :
    (run ++ rest).takeWhile p = run := by
  rw [List.takeWhile_append_of_pos hrun]
  cases rest with
  | nil => simp
  | cons c rest => simp [hr c rfl]

/-- What follows the run is left. -/
lemma dropWhile_run (hrun : ∀ c ∈ run, p c = true) (hr : ∀ c ∈ rest.head?, p c = false) :
    (run ++ rest).dropWhile p = rest := by
  rw [List.dropWhile_append_of_pos hrun]
  cases rest with
  | nil => rfl
  | cons c rest => simp [hr c rfl]

end Text

namespace Numeral

/-! ### Values -/

/-- The digits are the characters from `0` to `9`. -/
lemma isDigit_iff {c : Char} : c.isDigit = true ↔ 48 ≤ c.toNat ∧ c.toNat ≤ 57 := by
  simp [Char.isDigit, UInt32.le_iff_toNat_le]

lemma digit_le {c : Char} (h : c.isDigit = true) : c.toNat - '0'.toNat ≤ 9 := by
  have hrange := isDigit_iff.mp h
  have hzero : '0'.toNat = 48 := rfl
  omega

/-- A digit is no blank. -/
lemma isBlank_of_isDigit {c : Char} (h : c.isDigit = true) : Text.isBlank c = false := by
  have hrange := isDigit_iff.mp h
  simp only [Text.isBlank, Text.blankRanges, List.any_cons, List.any_nil, Bool.or_false,
    Bool.or_eq_false_iff, Bool.and_eq_false_iff, decide_eq_false_iff_not]
  omega

/-- The value of digits is that of the first ones, moved to the left, and that of the others. -/
lemma value_append (ds es : List Char) :
    value (ds ++ es) = 10 ^ es.length * value ds + value es := by
  rw [value, Nat.ofDigitChars_append, Nat.ofDigitChars_eq_ofDigitChars_zero]
  rfl

lemma value_cons (c : Char) (cs : List Char) :
    value (c :: cs) = 10 ^ cs.length * (c.toNat - '0'.toNat) + value cs := by
  rw [← List.singleton_append, value_append]
  simp [value, Nat.ofDigitChars_cons]

/-- The value of digits is below the power of ten of their number. -/
lemma value_lt {ds : List Char} (hd : ∀ c ∈ ds, c.isDigit = true) : value ds < 10 ^ ds.length := by
  induction ds with
  | nil => exact Nat.one_pos
  | cons c ds ih =>
      obtain ⟨hc, hds⟩ := List.forall_mem_cons.mp hd
      have hdigit := Nat.mul_le_mul_left (10 ^ ds.length) (digit_le hc)
      have hrest := ih hds
      rw [value_cons, List.length_cons, Nat.pow_succ]
      omega

/-- As many digits of the same value are the same digits. -/
lemma eq_of_value {ds es : List Char} (hd : ∀ c ∈ ds, c.isDigit = true)
    (he : ∀ c ∈ es, c.isDigit = true) (hl : ds.length = es.length) (hv : value ds = value es) :
    ds = es := by
  induction ds generalizing es with
  | nil => exact (List.length_eq_zero_iff.mp hl.symm).symm
  | cons c ds ih =>
      cases es with
      | nil => cases hl
      | cons e es =>
          obtain ⟨hc, hds⟩ := List.forall_mem_cons.mp hd
          obtain ⟨hce, hes⟩ := List.forall_mem_cons.mp he
          have hlen : ds.length = es.length := Nat.succ.inj hl
          have hpos : 0 < 10 ^ es.length := Nat.pow_pos (by norm_num)
          have hlt := value_lt hds
          -- the first digit is the quotient by the power of ten, the others are the remainder
          rw [value_cons, value_cons, hlen] at hv
          rw [hlen] at hlt
          obtain ⟨hquot, hrem⟩ := (Nat.div_mod_unique hpos).mpr
            ⟨(Nat.add_comm _ _).trans hv, hlt⟩
          obtain ⟨hquot', hrem'⟩ := (Nat.div_mod_unique hpos).mpr
            ⟨Nat.add_comm (value es) (10 ^ es.length * (e.toNat - '0'.toNat)), value_lt hes⟩
          have hfirst : c = e := by
            have hrange := isDigit_iff.mp hc
            have hrange' := isDigit_iff.mp hce
            have hzero : '0'.toNat = 48 := rfl
            rw [← Char.toNat_inj]
            omega
          rw [hfirst, ih hds hes hlen (hrem.symm.trans hrem')]

/-! ### Fixed width -/

/-- A padded number has at least its width. -/
lemma le_length_padded (w n : ℕ) : w ≤ (padded w n).length := by
  simp only [padded, List.length_append, List.length_replicate]
  omega

/-- A number that fits a width is written in exactly this width. -/
lemma length_padded {w n : ℕ} (hw : 0 < w) (hn : n < 10 ^ w) : (padded w n).length = w := by
  have h := (Nat.length_toDigits_le_iff (by norm_num : 1 < 10) hw).mpr hn
  simp only [padded, decimal, List.length_append, List.length_replicate]
  omega

/-- Every character of a padded number is a digit. -/
lemma isDigit_of_mem_padded {w n : ℕ} {c : Char} (h : c ∈ padded w n) : c.isDigit = true := by
  rcases List.mem_append.mp h with h | h
  · rw [List.eq_of_mem_replicate h]
    rfl
  · exact isDigit_of_mem_decimal h

/-- A run of digits is the padded form of its value. -/
lemma padded_value {ds : List Char} (hd : ∀ c ∈ ds, c.isDigit = true) (hne : ds ≠ []) :
    padded ds.length (value ds) = ds :=
  eq_of_value (fun _ => isDigit_of_mem_padded) hd
    (length_padded (List.length_pos_iff.mpr hne) (value_lt hd)) (value_padded _ _)

/-! ### No zeros in front -/

/-- The digits of a number begin with a zero only if it is zero. -/
lemma head?_decimal {n : ℕ} (hn : n ≠ 0) : (decimal n).head? ≠ some '0' := by
  induction n using Nat.strong_induction_on with
  | _ n ih =>
      by_cases hlt : n < 10
      · rw [decimal, Nat.toDigits_of_lt_base hlt, List.head?_cons, ne_eq, Option.some.injEq,
          Nat.digitChar_eq_zero]
        exact hn
      · -- the first digit is that of the number without its last one
        have hfirst := ih (n / 10) (by omega) (by omega)
        rw [decimal, Nat.toDigits_of_base_le (by norm_num) (by omega),
          List.head?_append_of_ne_nil _ Nat.toDigits_ne_nil]
        exact hfirst

/-! ### Numerals -/

/-- The text is an unsigned decimal numeral of this value: digits, at least one of them and with any
number of zeros in front, behind an optional plus sign. -/
def Denotes (cs : List Char) (n : ℕ) : Prop :=
  ∃ ds, (cs = ds ∨ cs = '+' :: ds) ∧ ds ≠ [] ∧ (∀ c ∈ ds, c.isDigit = true) ∧ value ds = n

/-- Without a sign the digits are read. -/
lemma readUnsigned_of_ne_plus {c : Char} (hc : c ≠ '+') (cs : List Char) :
    readUnsigned (c :: cs) = UInt64.ofNat <$> readDigits 0 (c :: cs) := by
  rw [readUnsigned]
  · exact nofun
  · exact fun h => hc (List.cons.inj h).1
  · exact fun ds h => hc (List.cons.inj h).1

/-- Behind a plus sign the digits are read. -/
lemma readUnsigned_plus {cs : List Char} (hcs : cs ≠ []) :
    readUnsigned ('+' :: cs) = UInt64.ofNat <$> readDigits 0 cs := by
  rw [readUnsigned]
  exact hcs

/-- Digits are read as `v` exactly if they are all digits and of this value. -/
lemma map_readDigits_eq_ok_iff {ds : List Char} {v : UInt64} :
    UInt64.ofNat <$> readDigits 0 ds = .ok v ↔
      (∀ c ∈ ds, c.isDigit = true) ∧ value ds = v.toNat := by
  have hread := fun n => @readDigits_eq_ok_iff 0 n ds (by decide)
  constructor
  · intro h
    cases hds : readDigits 0 ds with
    | error e =>
        rw [hds] at h
        cases h
    | ok n =>
        rw [hds] at h
        cases h
        obtain ⟨hdigits, rfl, hlt⟩ := (hread n).mp hds
        exact ⟨hdigits, (UInt64.toNat_ofNat_of_lt' hlt).symm⟩
  · rintro ⟨hdigits, hvalue⟩
    rw [(hread v.toNat).mpr ⟨hdigits, hvalue.symm, v.toNat_lt⟩]
    exact congrArg Except.ok UInt64.ofNat_toNat

/-- Exactly the numerals of values below `2^64` are read, and to their values. -/
theorem readUnsigned_eq_ok_iff {cs : List Char} {v : UInt64} :
    readUnsigned cs = .ok v ↔ Denotes cs v.toNat := by
  have hplus : ('+').isDigit = false := rfl
  rcases cs with _ | ⟨c, cs⟩
  · simp [readUnsigned, Denotes]
  by_cases hc : c = '+'
  · subst hc
    -- the plus sign is no digit, so it is the sign
    have hsign : Denotes ('+' :: cs) v.toNat ↔
        cs ≠ [] ∧ (∀ c ∈ cs, c.isDigit = true) ∧ value cs = v.toNat := by
      constructor
      · rintro ⟨ds, rfl | h, hne, hdigits, hvalue⟩
        · exact absurd (hdigits '+' List.mem_cons_self) (by simp [hplus])
        · obtain ⟨-, rfl⟩ := List.cons.inj h
          exact ⟨hne, hdigits, hvalue⟩
      · rintro ⟨hne, hdigits, hvalue⟩
        exact ⟨cs, .inr rfl, hne, hdigits, hvalue⟩
    rw [hsign]
    by_cases hcs : cs = []
    · simp [hcs, readUnsigned]
    · rw [readUnsigned_plus hcs, map_readDigits_eq_ok_iff]
      exact (and_iff_right hcs).symm
  · rw [readUnsigned_of_ne_plus hc, map_readDigits_eq_ok_iff]
    constructor
    · rintro ⟨hdigits, hvalue⟩
      exact ⟨c :: cs, .inl rfl, List.cons_ne_nil c cs, hdigits, hvalue⟩
    · rintro ⟨ds, rfl | h, -, hdigits, hvalue⟩
      · exact ⟨hdigits, hvalue⟩
      · exact absurd (List.cons.inj h).1 hc

/-- The digits of a number are a numeral. -/
lemma denotes_decimal (n : ℕ) : Denotes (decimal n) n :=
  ⟨decimal n, .inl rfl, decimal_ne_nil n, fun _ => isDigit_of_mem_decimal, value_decimal n⟩

/-- The digits of a number below `2^64` are read back. -/
lemma readUnsigned_decimal (v : UInt64) : readUnsigned (decimal v.toNat) = .ok v :=
  readUnsigned_eq_ok_iff.mpr (denotes_decimal v.toNat)

end Numeral

end FilterStore
