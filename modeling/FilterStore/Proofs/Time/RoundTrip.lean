import Mathlib.Tactic
import FilterStore.Proofs.Time.Spelling

/-!
Reading undoes writing for the instants of the years 0 to 9999, and for no others.

* **What is written.** The stored form of an instant of these years is spelled as the stored form
  should be and says the instant itself at the distance zero (`spells_write`).
* **Back and forth.** Such an instant is read back (`read_write`). A year outside has a sign in front,
  and no date that is read begins with one (`read_write_of_not_hasPlainYear`).
* **One form for each instant.** `read` accepts many texts for one instant. Written again, each of
  them becomes the same text, and further rounds change nothing (`stored_form_settles`).
-/

namespace FilterStore

namespace Timestamp

open Numeral (padded)

/-! ### What is written -/

/-- A number of at most nine digits behind a point is that many parts of a second. -/
lemma spellsFraction_padded {w n : ℕ} (hw : 0 < w) (hw9 : w ≤ 9) (hn : n < 10 ^ w) :
    SpellsFraction ('.' :: padded w n) (n * 10 ^ (9 - w)) := by
  have hlen := Numeral.length_padded hw hn
  have hne : padded w n ≠ [] := List.length_pos_iff.mp (hw.trans_eq hlen.symm)
  have hnano : Numeral.value (padded w n) * 10 ^ 9 / 10 ^ (padded w n).length = n * 10 ^ (9 - w) := by
    have hpow : 10 ^ 9 = 10 ^ (9 - w) * 10 ^ w := by rw [← Nat.pow_add, Nat.sub_add_cancel hw9]
    rw [Numeral.value_padded, hlen, hpow, ← Nat.mul_assoc,
      Nat.mul_div_cancel _ (Nat.pow_pos (by norm_num))]
  rw [← hnano]
  exact .point (fun _ => Numeral.isDigit_of_mem_padded) hne

/-- The written fraction stands for its nanoseconds. -/
lemma spellsFraction_fractionText {nano : ℕ} (hn : nano < 1000000000) :
    SpellsFraction (fractionText nano) nano := by
  -- as many digits as hold the nanoseconds, which are a multiple of what the missing ones count
  have key : ∀ w n, 0 < w → w ≤ 9 → n < 10 ^ w → n * 10 ^ (9 - w) = nano →
      SpellsFraction ('.' :: padded w n) nano := by
    rintro w n hw hw9 hlt rfl
    exact spellsFraction_padded hw hw9 hlt
  rw [fractionText]
  split_ifs with h0 h6 h3
  · rw [h0]
    exact .none
  · exact key 3 _ (by norm_num) (by norm_num) (by norm_num; omega) (by norm_num; omega)
  · exact key 6 _ (by norm_num) (by norm_num) (by norm_num; omega) (by norm_num; omega)
  · exact key 9 _ (by norm_num) (by norm_num) (by norm_num; omega) (by norm_num)

/-- What the stored form of an instant says: its own numbers at the distance zero. -/
def fieldsOf (t : Instant) : Fields :=
  ⟨t.date, t.minute, t.second, t.nano, 0⟩

lemma means_fieldsOf (t : Instant) : (fieldsOf t).Means t :=
  ⟨by simp [fieldsOf], rfl, rfl, by simp [fieldsOf, Instant.minutes]⟩

/-- The stored form of an instant of the years 0 to 9999 says the instant. -/
theorem spells_write {t : Instant} (ht : t.HasPlainYear) :
    Spells (write t).toList (fieldsOf t) := by
  have hyear : yearText t.year = padded 4 t.date.year.toNat := if_pos ht
  have hzone : SpellsOffset "+00:00".toList 0 := @SpellsOffset.east 0 0 (by norm_num) (by norm_num)
  refine ⟨ht, ⟨t.bounds.1, t.bounds.2.1⟩, 'T', by simp, fractionText t.nano, "+00:00".toList,
    spellsFraction_fractionText t.bounds.2.2, hzone, ?_⟩
  rw [write, String.toList_ofList, civilText, hyear]
  rfl

/-! ### Back and forth -/

/-- **The round trip**: an instant of the years 0 to 9999 is read back from its stored form, leap
seconds and nanoseconds included. -/
theorem read_write {t : Instant} (ht : t.HasPlainYear) : read (write t) = .ok t :=
  read_eq_ok_iff.mpr ⟨fieldsOf t, spells_write ht, means_fieldsOf t⟩

/-- The stored form of any instant has at least the characters up to the seconds. -/
lemma leastLength_le_write (t : Instant) : leastLength ≤ byteLength (write t).toList := by
  have hyear : 4 ≤ (yearText t.year).length := by
    by_cases hplain : 0 ≤ t.year ∧ t.year ≤ 9999
    · rw [yearText, if_pos hplain]
      exact Numeral.le_length_padded 4 _
    · rw [yearText, if_neg hplain]
      exact (Numeral.le_length_padded 4 _).trans (Nat.le_succ _)
  have hpadded := Numeral.le_length_padded 2
  have hmonth := hpadded t.date.month
  have hday := hpadded t.date.day
  have hhour := hpadded (t.minute / 60)
  have hminute := hpadded (t.minute % 60)
  have hsecond := hpadded t.second
  refine le_trans ?_ (length_le_byteLength _)
  rw [write, String.toList_ofList]
  simp only [civilText, leastLength, List.length_append, List.length_cons]
  omega

/-- An instant of any other year is refused when its stored form is read. -/
theorem read_write_of_not_hasPlainYear {t : Instant} (ht : ¬ t.HasPlainYear) :
    read (write t) = .error .invalid := by
  have hlong := leastLength_le_write t
  -- the text begins with the sign of the year
  have hsign : ∃ c rest, c.isDigit = false ∧ (write t).toList = c :: rest := by
    have htext : yearText t.year =
        (if t.year < 0 then '-' else '+') :: padded 4 t.year.natAbs := if_neg ht
    rw [write, String.toList_ofList]
    simp only [civilText, htext, List.cons_append]
    refine ⟨_, _, ?_, rfl⟩
    split_ifs <;> rfl
  obtain ⟨c, rest, hc, htext⟩ := hsign
  rw [htext] at hlong
  have hdigits : digits 4 4 (c :: rest) = .error .invalid := by
    have hfour : ¬ byteLength (c :: rest) < 4 := by
      simp only [leastLength] at hlong
      omega
    simp [digits, hfour, hc]
  have hnumber : number 4 4 (c :: rest) = .error .invalid :=
    bind_of_eq_error (f := fun ds => pure (Numeral.value ds)) hdigits
  have hfields : storedFields (c :: rest) = .error .invalid :=
    bind_of_eq_error (bind_of_eq_error hnumber)
  rw [read, htext, if_neg (Nat.not_lt.mpr hlong), whole, hfields]

/-- What is read back from the stored form of an instant tells that its year is one of 0 to 9999. -/
lemma hasPlainYear_of_read_write {t u : Instant} (h : read (write t) = .ok u) :
    t.HasPlainYear := by
  by_contra hyear
  rw [read_write_of_not_hasPlainYear hyear] at h
  cases h

/-! ### One form for each instant -/

/-- **Dates in the stored form.** An instant of the years 0 to 9999 is read back from what is written
for it, leap seconds and nanoseconds included, and what is written for one of another year is
refused. A text is read as the instant that its spelling means, whatever its offset, its letters and
the length of its fraction. If this instant is of the years 0 to 9999, what is written for it says
the same instant at the distance zero, and reading and writing it again gives the same text. -/
theorem stored_form_settles :
    (∀ t : Instant, t.HasPlainYear → read (write t) = .ok t) ∧
    (∀ t : Instant, ¬ t.HasPlainYear → read (write t) = .error .invalid) ∧
    (∀ s t, read s = .ok t ↔ ∃ f, Spells s.toList f ∧ f.Means t) ∧
    ∀ s t, read s = .ok t → t.HasPlainYear →
      Spells (write t).toList (fieldsOf t) ∧ read (write t) = read s ∧
        (read (write t)).map write = .ok (write t) := by
  refine ⟨fun t => read_write, fun t => read_write_of_not_hasPlainYear,
    fun s t => read_eq_ok_iff, fun s t hread ht => ?_⟩
  have hback := read_write ht
  refine ⟨spells_write ht, hback.trans hread.symm, ?_⟩
  rw [hback]
  rfl

/-- A time at an offset that moves it over the end of a year, with twelve digits of a fraction and
in a leap second, settles in the stored form of universal time. -/
example : (read "2016-12-31t18:59:60.123456789012-05:01").map write =
    .ok "2017-01-01T00:00:60.123456789+00:00" := by
  cbv

end Timestamp

namespace Instant

/-- The start of 1970. -/
def epoch : Instant :=
  ⟨⟨1970, 1, 1, by decide⟩, 0, 0, 0, by decide⟩

lemma hasPlainYear_epoch : epoch.HasPlainYear := by
  decide

end Instant

end FilterStore
