/-!
Days of the proleptic Gregorian calendar.

* **The calendar.** `daysIn y m` is the length of a month; `Date` is a day of a year between
  `firstYear` and `lastYear`, and the type holds no other days.
* **Neighbours.** `Date.next?` and `Date.previous?` step by one day, across the ends of months and
  years, and fail only at the two ends of the calendar. Each undoes the other
  (`Date.previous?_of_next?`, `Date.next?_of_previous?`).
-/

namespace FilterStore

/-! ### Years and months -/

/-- Every fourth year is a leap year, of the full centuries only every fourth. -/
def isLeapYear (year : Int) : Bool :=
  year % 4 == 0 && (year % 100 != 0 || year % 400 == 0)

/-- The number of days in a month of a year. -/
def daysIn (year : Int) (month : Nat) : Nat :=
  if month = 2 then if isLeapYear year then 29 else 28
  else if month = 4 ∨ month = 6 ∨ month = 9 ∨ month = 11 then 30
  else 31

/-- A month has at least 28 days. -/
theorem le_daysIn (year : Int) (month : Nat) : 28 ≤ daysIn year month := by
  unfold daysIn
  split <;> (try split) <;> omega

/-- A month has at most 31 days. -/
theorem daysIn_le (year : Int) (month : Nat) : daysIn year month ≤ 31 := by
  unfold daysIn
  split <;> (try split) <;> omega

/-- The first year of the calendar. -/
def firstYear : Int := -262143

/-- The last year of the calendar. -/
def lastYear : Int := 262142

/-! ### Days -/

/-- A day of the calendar. -/
structure Date where
  /-- The year, with year 0 before year 1. -/
  year : Int
  /-- The month, from 1. -/
  month : Nat
  /-- The day of the month, from 1. -/
  day : Nat
  /-- The calendar has such a day. -/
  exists_day : (firstYear ≤ year ∧ year ≤ lastYear) ∧ (1 ≤ month ∧ month ≤ 12) ∧
    1 ≤ day ∧ day ≤ daysIn year month
  deriving DecidableEq, Repr

namespace Date

/-- The day with the given year, month and day of the month, if the calendar has it. -/
def ofCivil? (year : Int) (month day : Nat) : Option Date :=
  if h : (firstYear ≤ year ∧ year ≤ lastYear) ∧ (1 ≤ month ∧ month ≤ 12) ∧
      1 ≤ day ∧ day ≤ daysIn year month then
    some ⟨year, month, day, h⟩
  else none

/-- A day is found under its own numbers. -/
@[simp] theorem ofCivil?_self (d : Date) : ofCivil? d.year d.month d.day = some d := by
  simp [ofCivil?, d.exists_day]

/-- What is found has the numbers asked for. -/
theorem eq_of_ofCivil? {year : Int} {month day : Nat} {d : Date}
    (h : ofCivil? year month day = some d) :
    d.year = year ∧ d.month = month ∧ d.day = day := by
  unfold ofCivil? at h
  split at h
  · cases h
    exact ⟨rfl, rfl, rfl⟩
  · cases h

/-- The day after, if the calendar has one. -/
def next? (d : Date) : Option Date :=
  if d.day < daysIn d.year d.month then ofCivil? d.year d.month (d.day + 1)
  else if d.month < 12 then ofCivil? d.year (d.month + 1) 1
  else ofCivil? (d.year + 1) 1 1

/-- The day before, if the calendar has one. -/
def previous? (d : Date) : Option Date :=
  if 1 < d.day then ofCivil? d.year d.month (d.day - 1)
  else if 1 < d.month then ofCivil? d.year (d.month - 1) (daysIn d.year (d.month - 1))
  else ofCivil? (d.year - 1) 12 31

/-- The day before the day after is the day itself. -/
theorem previous?_of_next? {d e : Date} (h : d.next? = some e) : e.previous? = some d := by
  obtain ⟨-, ⟨hm, hm'⟩, hd, hd'⟩ := d.exists_day
  have self := ofCivil?_self d
  unfold next? at h
  split at h
  next hlt =>
    obtain ⟨hy, hmo, hda⟩ := eq_of_ofCivil? h
    have hone : 1 < d.day + 1 := by omega
    unfold previous?
    rw [hy, hmo, hda, if_pos hone, Nat.add_sub_cancel]
    exact self
  next hge =>
    have hlast : daysIn d.year d.month = d.day := by omega
    split at h
    next hmonth =>
      obtain ⟨hy, hmo, hda⟩ := eq_of_ofCivil? h
      have hone : 1 < d.month + 1 := by omega
      unfold previous?
      rw [hy, hmo, hda, if_neg (by omega), if_pos hone, Nat.add_sub_cancel, hlast]
      exact self
    next hmonth =>
      obtain ⟨hy, hmo, hda⟩ := eq_of_ofCivil? h
      have htwelve : d.month = 12 := by omega
      have hlong : d.day = 31 := by
        rw [← hlast, htwelve]
        rfl
      unfold previous?
      rw [hy, hmo, hda, if_neg (by omega), if_neg (by omega)]
      have hyear : d.year + 1 - 1 = d.year := by omega
      rw [hyear, ← htwelve, ← hlong]
      exact self

/-- The day after the day before is the day itself. -/
theorem next?_of_previous? {d e : Date} (h : d.previous? = some e) : e.next? = some d := by
  obtain ⟨-, ⟨hm, hm'⟩, hd, hd'⟩ := d.exists_day
  have self := ofCivil?_self d
  unfold previous? at h
  split at h
  next hlt =>
    obtain ⟨hy, hmo, hda⟩ := eq_of_ofCivil? h
    unfold next?
    rw [hy, hmo, hda, if_pos (by omega), Nat.sub_add_cancel (by omega)]
    exact self
  next hge =>
    have hfirst : d.day = 1 := by omega
    split at h
    next hmonth =>
      obtain ⟨hy, hmo, hda⟩ := eq_of_ofCivil? h
      unfold next?
      rw [hy, hmo, hda, if_neg (by omega), if_pos (by omega), Nat.sub_add_cancel (by omega),
        ← hfirst]
      exact self
    next hmonth =>
      obtain ⟨hy, hmo, hda⟩ := eq_of_ofCivil? h
      have hone : d.month = 1 := by omega
      have hdec : daysIn (d.year - 1) 12 = 31 := rfl
      unfold next?
      rw [hy, hmo, hda, hdec, if_neg (by omega), if_neg (by omega)]
      have hyear : d.year - 1 + 1 = d.year := by omega
      rw [hyear]
      rw [hone, hfirst] at self
      exact self

end Date

end FilterStore
