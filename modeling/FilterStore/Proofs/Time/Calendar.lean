import Mathlib.Tactic
import Mathlib.Algebra.BigOperators.Intervals
import FilterStore.Time.Instant

/-!
Days and minutes counted through.

* **Days.** `Date.number` counts the days of the calendar from the first day of year 1 on, by the
  lengths of years and months. The day after has the next number (`Date.number_next`), and no two
  days have one number (`Date.number_injective`).
* **Minutes.** `Instant.minutes` counts the minutes in the same way. A local time at an offset is
  the instant with the same second that lies the offset before it on this scale, whatever day, month
  or year that is in (`Instant.ofLocal?_eq_some_iff`).
-/

namespace FilterStore

/-! ### Years and months -/

/-- The number of days of a year. -/
def yearLength (year : ℤ) : ℤ :=
  if isLeapYear year then 366 else 365

/-- The number of days from the first day of year 1 to the beginning of a year, which is negative for
the years before: each year has 365 of them, each fourth one more, of the full centuries only each
fourth. -/
def daysBeforeYear (year : ℤ) : ℤ :=
  365 * (year - 1) + (year - 1) / 4 - (year - 1) / 100 + (year - 1) / 400

/-- The number of days from the beginning of a year to that of a month. -/
def daysBeforeMonth (year : ℤ) (month : ℕ) : ℕ :=
  ∑ m ∈ Finset.Ico 1 month, daysIn year m

lemma daysBeforeYear_succ (year : ℤ) :
    daysBeforeYear (year + 1) = daysBeforeYear year + yearLength year := by
  have hleap : isLeapYear year = true ↔ year % 4 = 0 ∧ (year % 100 ≠ 0 ∨ year % 400 = 0) := by
    simp [isLeapYear]
  rw [yearLength]
  simp only [daysBeforeYear, hleap]
  split_ifs <;> omega

lemma daysBeforeYear_mono {y z : ℤ} (h : y ≤ z) : daysBeforeYear y ≤ daysBeforeYear z := by
  simp only [daysBeforeYear]
  omega

lemma daysBeforeMonth_one (year : ℤ) : daysBeforeMonth year 1 = 0 := rfl

lemma daysBeforeMonth_succ (year : ℤ) {month : ℕ} (h : 1 ≤ month) :
    daysBeforeMonth year (month + 1) = daysBeforeMonth year month + daysIn year month :=
  Finset.sum_Ico_succ_top h _

lemma daysBeforeMonth_mono (year : ℤ) {m n : ℕ} (h : m ≤ n) :
    daysBeforeMonth year m ≤ daysBeforeMonth year n :=
  Finset.sum_le_sum_of_subset (Finset.Ico_subset_Ico_right h)

/-- The twelve months make up the year. -/
lemma daysBeforeMonth_thirteen (year : ℤ) : (daysBeforeMonth year 13 : ℤ) = yearLength year := by
  rw [yearLength]
  cases h : isLeapYear year <;> simp [daysBeforeMonth, Finset.sum_Ico_succ_top, daysIn, h]

/-! ### Days -/

/-- Stretches of a scale, each from behind `f` to `g`, that follow one another have no point in
common. -/
lemma eq_of_between {ι : Type} [LinearOrder ι] {f g : ι → ℤ} (h : ∀ k l, k < l → g k ≤ f l) {x : ℤ}
    {k l : ι} (hk : f k < x ∧ x ≤ g k) (hl : f l < x ∧ x ≤ g l) : k = l := by
  rcases lt_trichotomy k l with hlt | heq | hgt
  · have := h k l hlt
    omega
  · exact heq
  · have := h l k hgt
    omega

namespace Date

variable {d e : Date}

/-- The number of a day, counted from the first day of year 1, which is day 1. -/
def number (d : Date) : ℤ :=
  daysBeforeYear d.year + daysBeforeMonth d.year d.month + d.day

/-- A day lies in its month. -/
lemma dayOfYear_bounds (d : Date) :
    daysBeforeMonth d.year d.month < daysBeforeMonth d.year d.month + d.day ∧
      daysBeforeMonth d.year d.month + d.day ≤ daysBeforeMonth d.year (d.month + 1) := by
  obtain ⟨-, ⟨hm, -⟩, hd, hd'⟩ := d.exists_day
  rw [daysBeforeMonth_succ d.year hm]
  omega

/-- A day lies in its year. -/
lemma number_bounds (d : Date) :
    daysBeforeYear d.year < d.number ∧ d.number ≤ daysBeforeYear (d.year + 1) := by
  obtain ⟨-, ⟨-, hm⟩, hd, -⟩ := d.exists_day
  have hmonth := d.dayOfYear_bounds
  have hyear := daysBeforeMonth_mono d.year (show d.month + 1 ≤ 13 by omega)
  have hlength := daysBeforeMonth_thirteen d.year
  rw [daysBeforeYear_succ, number]
  omega

/-- No two days have one number. -/
theorem number_injective : Function.Injective number := by
  intro d e h
  have hyear : d.year = e.year := by
    refine eq_of_between (f := daysBeforeYear) (g := fun y => daysBeforeYear (y + 1))
      (fun k l hlt => ?_) d.number_bounds (h ▸ e.number_bounds)
    exact daysBeforeYear_mono hlt
  have hrest : daysBeforeMonth d.year d.month + d.day = daysBeforeMonth d.year e.month + e.day := by
    simp only [number, hyear] at h
    rw [hyear]
    omega
  have hbounds := e.dayOfYear_bounds
  rw [← hyear, ← hrest] at hbounds
  have hmonth : d.month = e.month := by
    refine eq_of_between (x := daysBeforeMonth d.year d.month + d.day)
      (f := fun m => daysBeforeMonth d.year m) (g := fun m => daysBeforeMonth d.year (m + 1))
      (fun k l hlt => ?_)
      (mod_cast d.dayOfYear_bounds) (mod_cast hbounds)
    exact_mod_cast daysBeforeMonth_mono d.year hlt
  have hday : d.day = e.day := by
    rw [hmonth] at hrest
    omega
  obtain ⟨_, _, _, _⟩ := d
  obtain ⟨_, _, _, _⟩ := e
  obtain rfl := hyear
  obtain rfl := hmonth
  obtain rfl := hday
  rfl

/-- The day after has the next number. -/
theorem number_next (h : d.next? = some e) : e.number = d.number + 1 := by
  obtain ⟨-, ⟨hm, hm'⟩, hd, hd'⟩ := d.exists_day
  rw [next?] at h
  split_ifs at h with hinside hmonth
  · obtain ⟨hy, hmo, hda⟩ := eq_of_ofCivil? h
    rw [number, number, hy, hmo, hda]
    omega
  · obtain ⟨hy, hmo, hda⟩ := eq_of_ofCivil? h
    have hlast := daysBeforeMonth_succ d.year hm
    rw [number, number, hy, hmo, hda]
    omega
  · obtain ⟨hy, hmo, hda⟩ := eq_of_ofCivil? h
    have htwelve : d.month = 12 := by omega
    have hlast : daysBeforeMonth d.year 13 = daysBeforeMonth d.year 12 + daysIn d.year 12 :=
      daysBeforeMonth_succ d.year (by norm_num)
    have hlength := daysBeforeMonth_thirteen d.year
    have hyear := daysBeforeYear_succ d.year
    rw [htwelve] at hinside hd'
    rw [number, number, hy, hmo, hda, daysBeforeMonth_one, htwelve]
    omega

/-- The day before has the number before. -/
theorem number_previous (h : d.previous? = some e) : e.number = d.number - 1 := by
  have := number_next (next?_of_previous? h)
  omega

/-- The calendar has a day if its numbers are in their ranges. -/
lemma exists_ofCivil? {year : ℤ} {month day : ℕ}
    (h : (firstYear ≤ year ∧ year ≤ lastYear) ∧ (1 ≤ month ∧ month ≤ 12) ∧
      1 ≤ day ∧ day ≤ daysIn year month) : ∃ e, ofCivil? year month day = some e :=
  ⟨_, dif_pos h⟩

/-- Only the last year of the calendar has a day with none after it. -/
lemma exists_next (h : d.year < lastYear) : ∃ e, d.next? = some e := by
  obtain ⟨hy, ⟨hm, hm'⟩, hd, hd'⟩ := d.exists_day
  have hlong := fun year month => le_daysIn year month
  rw [next?]
  split_ifs with hinside hmonth
  · exact exists_ofCivil? ⟨hy, ⟨hm, hm'⟩, by omega, by omega⟩
  · have := hlong d.year (d.month + 1)
    exact exists_ofCivil? ⟨hy, ⟨by omega, by omega⟩, by omega, by omega⟩
  · have := hlong (d.year + 1) 1
    exact exists_ofCivil? ⟨⟨by omega, by omega⟩, by omega, by omega, by omega⟩

/-- Only the first year of the calendar has a day with none before it. -/
lemma exists_previous (h : firstYear < d.year) : ∃ e, d.previous? = some e := by
  obtain ⟨hy, ⟨hm, hm'⟩, hd, hd'⟩ := d.exists_day
  rw [previous?]
  split_ifs with hinside hmonth
  · exact exists_ofCivil? ⟨hy, ⟨hm, hm'⟩, by omega, by omega⟩
  · have := le_daysIn d.year (d.month - 1)
    exact exists_ofCivil? ⟨hy, ⟨by omega, by omega⟩, by omega, le_rfl⟩
  · exact exists_ofCivil? ⟨⟨by omega, by omega⟩, by omega, by omega, le_rfl⟩

end Date

/-! ### Minutes -/

namespace Instant

variable {t u : Instant}

/-- The number of the minute of an instant, counted through. -/
def minutes (t : Instant) : ℤ :=
  1440 * t.date.number + t.minute

/-- Minute, second and nanosecond tell which instant it is. -/
lemma eq_of_minutes (hm : t.minutes = u.minutes) (hs : t.second = u.second)
    (hn : t.nano = u.nano) : t = u := by
  obtain ⟨ht, -, -⟩ := t.bounds
  obtain ⟨hu, -, -⟩ := u.bounds
  simp only [minutes] at hm
  have hdate : t.date = u.date := Date.number_injective (by omega)
  have hminute : t.minute = u.minute := by
    rw [hdate] at hm
    omega
  obtain ⟨_, _, _, _, _⟩ := t
  obtain ⟨_, _, _, _, _⟩ := u
  obtain rfl := hdate
  obtain rfl := hminute
  obtain rfl := hs
  obtain rfl := hn
  rfl

/-- What is found has the numbers asked for. -/
lemma eq_of_ofParts? {date : Date} {minute second nano : ℕ}
    (h : ofParts? date minute second nano = some t) :
    t.date = date ∧ t.minute = minute ∧ t.second = second ∧ t.nano = nano := by
  rw [ofParts?] at h
  split_ifs at h
  cases h
  exact ⟨rfl, rfl, rfl, rfl⟩

section Local

variable {date : Date} {minute second nano : ℕ} {offset : ℤ}

/-- The instant of a local time has its second and lies the offset before it. -/
lemma minutes_of_ofLocal? (ho : -1440 < offset ∧ offset < 1440)
    (h : ofLocal? date minute second nano offset = some t) :
    t.second = second ∧ t.nano = nano ∧ t.minutes + offset = 1440 * date.number + minute := by
  simp only [ofLocal?] at h
  split_ifs at h with hbefore hsame
  · obtain ⟨d, hd, hparts⟩ := Option.bind_eq_some_iff.mp h
    obtain ⟨hdate, hminute, hsecond, hnano⟩ := eq_of_ofParts? hparts
    have hnumber := Date.number_previous hd
    refine ⟨hsecond, hnano, ?_⟩
    rw [minutes, hdate, hminute]
    omega
  · obtain ⟨hdate, hminute, hsecond, hnano⟩ := eq_of_ofParts? h
    refine ⟨hsecond, hnano, ?_⟩
    rw [minutes, hdate, hminute]
    omega
  · obtain ⟨d, hd, hparts⟩ := Option.bind_eq_some_iff.mp h
    obtain ⟨hdate, hminute, hsecond, hnano⟩ := eq_of_ofParts? hparts
    have hnumber := Date.number_next hd
    refine ⟨hsecond, hnano, ?_⟩
    rw [minutes, hdate, hminute]
    omega

/-- Every local time of a day that is in neither the first nor the last year of the calendar is the
local time of an instant. -/
lemma exists_ofLocal? (hy : firstYear < date.year ∧ date.year < lastYear)
    (ht : minute < 1440 ∧ second ≤ 60 ∧ nano < 1000000000) (ho : -1440 < offset ∧ offset < 1440) :
    ∃ t, ofLocal? date minute second nano offset = some t := by
  obtain ⟨before, hbefore⟩ := Date.exists_previous hy.1
  obtain ⟨after, hafter⟩ := Date.exists_next hy.2
  have hparts : ∀ (d : Date) (m : ℕ), m < 1440 → ∃ t, ofParts? d m second nano = some t :=
    fun d m hm => ⟨_, dif_pos ⟨hm, ht.2⟩⟩
  simp only [ofLocal?, hbefore, hafter, Option.bind_some]
  split_ifs with hneg hsame
  · exact hparts before _ (by omega)
  · exact hparts date _ (by omega)
  · exact hparts after _ (by omega)

/-- **Local times**: away from the ends of the calendar, the instant of a local time is the one with
the same second that lies the offset before it. -/
theorem ofLocal?_eq_some_iff (hy : firstYear < date.year ∧ date.year < lastYear)
    (ht : minute < 1440 ∧ second ≤ 60 ∧ nano < 1000000000) (ho : -1440 < offset ∧ offset < 1440) :
    ofLocal? date minute second nano offset = some t ↔
      t.second = second ∧ t.nano = nano ∧ t.minutes + offset = 1440 * date.number + minute := by
  constructor
  · exact minutes_of_ofLocal? ho
  · rintro ⟨hsecond, hnano, hminutes⟩
    obtain ⟨u, hu⟩ := exists_ofLocal? hy ht ho
    obtain ⟨husecond, hunano, huminutes⟩ := minutes_of_ofLocal? ho hu
    have heq : t = u :=
      eq_of_minutes (by omega) (hsecond.trans husecond.symm) (hnano.trans hunano.symm)
    rw [hu, heq]

end Local

end Instant

end FilterStore
