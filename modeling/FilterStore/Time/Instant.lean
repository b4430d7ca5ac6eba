import FilterStore.Time.Date

/-!
Instants of universal time.

* **The type.** An `Instant` is a day, a minute of that day, a second of that minute and a
  nanosecond of that second. Second 60 is a leap second; any minute may have one.
* **Local times.** `ofLocal?` takes a local date and time of day at an offset in minutes east to the
  instant, moving to the neighbouring day where needed. At offset 0 nothing moves
  (`ofLocal?_zero`).
-/

namespace FilterStore

/-- An instant of universal time, to the nanosecond. -/
structure Instant where
  /-- The day. -/
  date : Date
  /-- The minute of the day. -/
  minute : Nat
  /-- The second of the minute, 60 in a leap second. -/
  second : Nat
  /-- The nanosecond of the second. -/
  nano : Nat
  /-- The numbers are in their ranges. -/
  bounds : minute < 1440 ∧ second ≤ 60 ∧ nano < 1000000000
  deriving DecidableEq, Repr

namespace Instant

/-- The year of the instant. -/
def year (t : Instant) : Int :=
  t.date.year

/-- Whether the year is written with four digits and no sign. -/
def HasPlainYear (t : Instant) : Prop :=
  0 ≤ t.year ∧ t.year ≤ 9999

instance (t : Instant) : Decidable t.HasPlainYear :=
  inferInstanceAs (Decidable (_ ∧ _))

/-- The instant with these numbers, if they are in their ranges. -/
def ofParts? (date : Date) (minute second nano : Nat) : Option Instant :=
  if h : minute < 1440 ∧ second ≤ 60 ∧ nano < 1000000000 then some ⟨date, minute, second, nano, h⟩
  else none

/-- An instant is found under its own numbers. -/
@[simp] theorem ofParts?_self (t : Instant) :
    ofParts? t.date t.minute t.second t.nano = some t :=
  dif_pos t.bounds

/-- The instant at which clocks that run `offset` minutes ahead show the given date and time. -/
def ofLocal? (date : Date) (minute second nano : Nat) (offset : Int) : Option Instant :=
  let m := (minute : Int) - offset
  if m < 0 then date.previous?.bind fun d => ofParts? d (m + 1440).toNat second nano
  else if m < 1440 then ofParts? date m.toNat second nano
  else date.next?.bind fun d => ofParts? d (m - 1440).toNat second nano

/-- Clocks that run with universal time show the instant itself. -/
@[simp] theorem ofLocal?_zero (t : Instant) :
    ofLocal? t.date t.minute t.second t.nano 0 = some t := by
  obtain ⟨hm, -, -⟩ := t.bounds
  have h0 : ¬ ((t.minute : Int) - 0 < 0) := by omega
  have h1 : (t.minute : Int) - 0 < 1440 := by omega
  have h2 : ((t.minute : Int) - 0).toNat = t.minute := by omega
  simp only [ofLocal?]
  rw [if_neg h0, if_pos h1, h2, ofParts?_self]

/-- The instant a number of whole seconds and some nanoseconds after the start of 1970, with no
leap seconds between. -/
def ofEpoch? (seconds nano : Nat) : Option Instant := do
  let start ← Date.ofCivil? 1970 1 1
  let day ← (List.range (seconds / 86400)).foldlM (fun d _ => d.next?) start
  ofParts? day (seconds % 86400 / 60) (seconds % 60) nano

end Instant

end FilterStore
