import Mathlib.Tactic
import FilterStore.Proofs.Time.RoundTrip
import FilterStore.Time.Lenient

/-!
Dates as exchanged with other programs are read back, whatever their year.

The lenient reading has other pieces than the stored form: a year of any length behind its sign
(`signedYear_yearText`), and numbers and separators that blanks may precede. Where nothing is blank
they take what is written (`spacedNumber_padded`, `spacedCharacter_cons`), so every instant is read
back from its form with a letter for universal time (`readLenient?_writeZulu`).
-/

namespace FilterStore.Timestamp

open Numeral (padded)

variable {rest : List Char}

/-! ### Blanks that are not there -/

/-- Nothing is dropped in front of something else than a blank. -/
lemma blanks_of_head? {cs : List Char} (h : ∀ c ∈ cs.head?, Text.isBlank c = false) :
    blanks cs = .ok ((), cs) := by
  have htrim : Text.trimStart cs = cs := by
    cases cs with
    | nil => rfl
    | cons c cs => exact Text.trimStart_cons (h c rfl) cs
  change Except.ok ((), Text.trimStart cs) = _
  rw [htrim]

/-- A padded number begins with a digit. -/
lemma isDigit_head?_padded {w : ℕ} (hw : 0 < w) (n : ℕ) :
    ∀ c ∈ (padded w n ++ rest).head?, c.isDigit = true := by
  have hlen := Numeral.le_length_padded w n
  intro c hc
  rw [List.head?_append_of_ne_nil _ (List.length_pos_iff.mp (hw.trans_le hlen))] at hc
  exact Numeral.isDigit_of_mem_padded (List.mem_of_mem_head? hc)

/-- A number of two digits is taken. -/
lemma spacedNumber_padded {n : ℕ} (hn : n < 100) (rest : List Char) :
    spacedNumber (padded 2 n ++ rest) = .ok (n, rest) := by
  have hblanks : blanks (padded 2 n ++ rest) = .ok ((), padded 2 n ++ rest) :=
    blanks_of_head? fun c hc =>
      Numeral.isBlank_of_isDigit (isDigit_head?_padded (by norm_num) n c hc)
  have hlen := Numeral.length_padded (by norm_num : 0 < 2) hn
  rw [spacedNumber, bind_of_eq_ok hblanks, number, map_eq_ok_iff]
  refine ⟨padded 2 n, ?_, Numeral.value_padded 2 n⟩
  exact digits_append (fun _ => Numeral.isDigit_of_mem_padded) (by omega) (by omega) (.inl hlen)

/-- A separator is taken. -/
lemma spacedCharacter_cons {c : Char} (hc : Text.isBlank c = false) (rest : List Char) :
    spacedCharacter c (c :: rest) = .ok ((), rest) := by
  have hblanks : blanks (c :: rest) = .ok ((), c :: rest) :=
    blanks_of_head? fun d hd => by
      cases hd
      exact hc
  rw [spacedCharacter, bind_of_eq_ok hblanks]
  exact discard_eq_ok_iff.mpr ⟨c, character_cons c rest⟩

/-! ### Years -/

/-- A year without a sign has up to four digits. -/
lemma signedYear_of_isDigit {cs : List Char} (h : ∀ c ∈ cs.head?, c.isDigit = true) {ds : List Char}
    (hread : digits 1 4 cs = .ok (ds, rest)) :
    signedYear cs = .ok ((Numeral.value ds : ℤ), rest) := by
  have hblanks : blanks cs = .ok ((), cs) :=
    blanks_of_head? fun c hc => Numeral.isBlank_of_isDigit (h c hc)
  have hget : (get : Reading (List Char)) cs = .ok (cs, cs) := rfl
  rw [signedYear, bind_of_eq_ok hblanks, bind_of_eq_ok hget]
  split
  next => exact absurd (h '-' rfl) (by decide)
  next => exact absurd (h '+' rfl) (by decide)
  next => rw [bind_of_eq_ok hread, pure_eq_ok_iff.mpr ⟨rfl, rfl⟩]

/-- A year before the first is behind a minus sign. -/
lemma signedYear_minus {cs ds : List Char} (hread : digits 1 cs.length cs = .ok (ds, rest)) :
    signedYear ('-' :: cs) = .ok (-(Numeral.value ds : ℤ), rest) :=
  bind_of_eq_ok (f := fun ds => pure (-(Numeral.value ds : ℤ))) hread

/-- A year behind a plus sign has any number of digits. -/
lemma signedYear_plus {cs ds : List Char} (hread : digits 1 cs.length cs = .ok (ds, rest)) :
    signedYear ('+' :: cs) = .ok ((Numeral.value ds : ℤ), rest) :=
  bind_of_eq_ok (f := fun ds => pure (Numeral.value ds : ℤ)) hread

/-- Behind a sign the digits are taken as far as they go. -/
lemma digits_padded {w : ℕ} (hw : 0 < w) (n : ℕ) (hr : ∀ c ∈ rest.head?, c.isDigit = false) :
    digits 1 (padded w n ++ rest).length (padded w n ++ rest) = .ok (padded w n, rest) := by
  have hlen := Numeral.le_length_padded w n
  refine digits_append (fun _ => Numeral.isDigit_of_mem_padded) (by omega) ?_ (.inr hr)
  rw [List.length_append]
  exact Nat.le_add_right _ _

/-- A written year is read back, with and without a sign, if no digit follows. -/
theorem signedYear_yearText (year : ℤ) (hr : ∀ c ∈ rest.head?, c.isDigit = false) :
    signedYear (yearText year ++ rest) = .ok (year, rest) := by
  by_cases hplain : 0 ≤ year ∧ year ≤ 9999
  · have hlen := Numeral.length_padded (by norm_num : 0 < 4) (by omega : year.toNat < 10 ^ 4)
    have hdigits : digits 1 4 (padded 4 year.toNat ++ rest) = .ok (padded 4 year.toNat, rest) :=
      digits_append (fun _ => Numeral.isDigit_of_mem_padded) (by omega) (by omega) (.inl hlen)
    rw [yearText, if_pos hplain,
      signedYear_of_isDigit (isDigit_head?_padded (by norm_num) year.toNat) hdigits,
      Numeral.value_padded, Int.toNat_of_nonneg hplain.1]
  · have hdigits := digits_padded (by norm_num : 0 < 4) year.natAbs hr
    rw [yearText, if_neg hplain]
    by_cases hneg : year < 0
    · have hback : -(year.natAbs : ℤ) = year := by omega
      rw [if_pos hneg, List.cons_append, signedYear_minus hdigits, Numeral.value_padded, hback]
    · have hback : (year.natAbs : ℤ) = year := by omega
      rw [if_neg hneg, List.cons_append, signedYear_plus hdigits, Numeral.value_padded, hback]

/-! ### The whole -/

/-- The letter for universal time is read as the distance zero. -/
lemma spacedOffset_zulu : spacedOffset ['Z'] = .ok (0, []) :=
  rfl

/-- Everything an instant is written with is read. -/
lemma lenientFields_civilText (t : Instant) :
    lenientFields (civilText t ++ ['Z']) = .ok (fieldsOf t, []) := by
  obtain ⟨hmin, hsec, hnano⟩ := t.bounds
  obtain ⟨-, ⟨hm, hm'⟩, hd, hd'⟩ := t.date.exists_day
  have hlast := daysIn_le t.date.year t.date.month
  have htext : civilText t ++ ['Z'] =
      yearText t.date.year ++ '-' :: (padded 2 t.date.month ++ '-' :: (padded 2 t.date.day ++
        'T' :: (padded 2 (t.minute / 60) ++ ':' :: (padded 2 (t.minute % 60) ++
          ':' :: (padded 2 t.second ++ (fractionText t.nano ++ ['Z'])))))) := by
    simp [civilText, Instant.year]
  have hdash : Text.isBlank '-' = false := by decide
  have hcolon : Text.isBlank ':' = false := by decide
  have hfraction : fraction (fractionText t.nano ++ ['Z']) = .ok (t.nano, ['Z']) := by
    refine fraction_append (spellsFraction_fractionText hnano) fun c hc => ?_
    cases hc
    decide
  have hblanks : blanks [] = .ok ((), []) := rfl
  have hday : day t.date.year t.date.month t.date.day [] = .ok (t.date, []) :=
    day_eq_ok_iff.mpr ⟨⟨rfl, rfl, rfl⟩, rfl⟩
  have hclock : minuteOfDay (t.minute / 60) (t.minute % 60) t.second [] = .ok (t.minute, []) :=
    minuteOfDay_eq_ok_iff.mpr ⟨⟨hmin, hsec, rfl, rfl⟩, rfl⟩
  rw [lenientFields]
  rw [htext, bind_of_eq_ok (signedYear_yearText _ (by simp)),
    bind_of_eq_ok (spacedCharacter_cons hdash _),
    bind_of_eq_ok (spacedNumber_padded (by omega) _),
    bind_of_eq_ok (spacedCharacter_cons hdash _),
    bind_of_eq_ok (spacedNumber_padded (by omega) _),
    bind_of_eq_ok (characterOf_cons (by decide) _),
    bind_of_eq_ok (spacedNumber_padded (by omega) _),
    bind_of_eq_ok (spacedCharacter_cons hcolon _),
    bind_of_eq_ok (spacedNumber_padded (by omega) _),
    bind_of_eq_ok (spacedCharacter_cons hcolon _),
    bind_of_eq_ok (spacedNumber_padded (by omega) _), bind_of_eq_ok hfraction,
    bind_of_eq_ok spacedOffset_zulu, bind_of_eq_ok hblanks, bind_of_eq_ok hday,
    bind_of_eq_ok hclock]
  rfl

/-- The fields of an instant at the distance zero mean the instant. -/
lemma instant?_fieldsOf (t : Instant) : (fieldsOf t).instant? = some t := by
  rw [Fields.instant?, fieldsOf, if_pos (by norm_num), Instant.ofLocal?_zero]

/-- **Exchanged dates**: every instant is read back from its form with a letter for universal time,
whatever its year, leap seconds and nanoseconds included. -/
theorem readLenient?_writeZulu (t : Instant) : readLenient? (writeZulu t) = some t := by
  rw [readLenient?, writeZulu, String.toList_ofList, whole, lenientFields_civilText]
  simp only [instant?_fieldsOf]
  rfl

/-- A year before the first has a sign and is read back with it, which the stored form is not. -/
example : (readLenient? "-0044-03-15T12:00:00Z").map writeZulu = some "-0044-03-15T12:00:00Z" ∧
    read "-0044-03-15T12:00:00+00:00" = .error .invalid := by
  constructor <;> cbv

end FilterStore.Timestamp
