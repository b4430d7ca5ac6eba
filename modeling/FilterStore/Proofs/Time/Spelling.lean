import Mathlib.Data.List.TakeWhile
import Mathlib.Tactic
import FilterStore.Proofs.Text.Numerals
import FilterStore.Proofs.Time.Calendar
import FilterStore.Time.Timestamp

/-!
Which texts are dates in the stored form, and which instants they mean.

* **Pieces.** For each piece of a date one lemma says what its reader takes from the front of a text:
  `digits_eq_ok_iff`, `number_eq_ok_iff`, `characterOf_eq_ok_iff`, `offset_eq_ok_iff`. A fraction of
  any length stands for its nanoseconds, with the digits behind the ninth cut off
  (`SpellsFraction`, `fraction_append`, `spellsFraction_of_fraction`).
* **Dates.** `Spells` is the grammar of the stored form, and `Fields.Means` says which instant the
  fields of a date mean: the one that lies the offset before the local time. A text is read as an
  instant exactly if it is spelled so and means this instant (`read_eq_ok_iff`).
-/

namespace FilterStore.Timestamp

open Numeral (padded)

/-! ### Steps of a reading -/

section Steps

variable {α β : Type} {x : Reading α} {f : α → Reading β} {cs rest : List Char}

/-- A reading goes on behind what its first step takes. -/
lemma bind_of_eq_ok {a : α} (h : x cs = .ok (a, rest)) : (x >>= f) cs = f a rest := by
  simp only [bind, StateT.bind, Except.bind, h]

/-- A reading fails where its first step does. -/
lemma bind_of_eq_error {fault : Fault} (h : x cs = .error fault) :
    (x >>= f) cs = .error fault := by
  simp only [bind, StateT.bind, Except.bind, h]

/-- A reading succeeds if its steps do, each behind what the earlier ones took. -/
lemma bind_eq_ok_iff {b : β} :
    (x >>= f) cs = .ok (b, rest) ↔ ∃ a mid, x cs = .ok (a, mid) ∧ f a mid = .ok (b, rest) := by
  constructor
  · intro h
    rcases hx : x cs with fault | ⟨a, mid⟩
    · rw [bind_of_eq_error hx] at h
      cases h
    · rw [bind_of_eq_ok hx] at h
      exact ⟨a, mid, rfl, h⟩
  · rintro ⟨a, mid, hx, hf⟩
    rw [bind_of_eq_ok hx, hf]

lemma map_eq_ok_iff {g : α → β} {b : β} :
    (g <$> x) cs = .ok (b, rest) ↔ ∃ a, x cs = .ok (a, rest) ∧ g a = b := by
  have hmap : g <$> x = x >>= fun a => pure (g a) := rfl
  rw [hmap, bind_eq_ok_iff]
  constructor
  · rintro ⟨a, mid, hx, hpure⟩
    cases hpure
    exact ⟨a, hx, rfl⟩
  · rintro ⟨a, hx, rfl⟩
    exact ⟨a, rest, hx, rfl⟩

lemma pure_eq_ok_iff {a b : α} : (pure a : Reading α) cs = .ok (b, rest) ↔ a = b ∧ cs = rest := by
  change (Except.ok (a, cs) : Except Fault (α × List Char)) = .ok (b, rest) ↔ _
  rw [Except.ok.injEq, Prod.mk.injEq]

end Steps

/-! ### Characters and numbers -/

variable {cs rest : List Char}

/-- A text has at least as many bytes as characters. -/
lemma length_le_byteLength (cs : List Char) : cs.length ≤ byteLength cs := by
  induction cs with
  | nil => exact le_rfl
  | cons c cs ih =>
      have hc := c.utf8Size_pos
      simp only [byteLength, List.foldr_cons, List.length_cons] at ih ⊢
      omega

/-- A run of digits is taken whole if its length is allowed and it cannot be longer: it is as long
as allowed, or something else than a digit follows. -/
lemma digits_append {least most : ℕ} {ds : List Char} (hd : ∀ c ∈ ds, c.isDigit = true)
    (hl : least ≤ ds.length) (hm : ds.length ≤ most)
    (hr : ds.length = most ∨ ∀ c ∈ rest.head?, c.isDigit = false) :
    digits least most (ds ++ rest) = .ok (ds, rest) := by
  have htake : ((ds ++ rest).take most).takeWhile Char.isDigit = ds := by
    rw [List.take_append, List.take_of_length_le hm]
    refine Text.takeWhile_run hd fun c hc => ?_
    rw [List.head?_take] at hc
    split_ifs at hc with hzero
    · cases hc
    · exact hr.elim (fun hfull => absurd (Nat.sub_eq_zero_of_le hfull.ge) hzero) fun hr => hr c hc
  have hbytes : least ≤ byteLength (ds ++ rest) := by
    have := length_le_byteLength (ds ++ rest)
    rw [List.length_append] at this
    omega
  simp only [digits, htake]
  rw [if_neg (by omega), if_neg (by omega), List.drop_left]

/-- Behind the digits in front of a text that are taken, as many as allowed, no digit follows. -/
lemma head?_drop_takeWhile {most : ℕ} (cs : List Char)
    (h : ((cs.take most).takeWhile Char.isDigit).length < most) :
    ∀ c ∈ (cs.drop ((cs.take most).takeWhile Char.isDigit).length).head?, c.isDigit = false := by
  induction cs generalizing most with
  | nil => simp
  | cons d cs ih =>
      cases most with
      | zero => simp at h
      | succ most =>
          by_cases hd : d.isDigit = true
          · simp only [List.take_succ_cons, List.takeWhile_cons, hd, if_true, List.length_cons,
              List.drop_succ_cons] at h ⊢
            exact ih (Nat.lt_of_succ_lt_succ h)
          · simp [hd]

/-- Exactly the digits in front are taken, as many as there are and are allowed. -/
theorem digits_eq_ok_iff {least most : ℕ} {ds : List Char} :
    digits least most cs = .ok (ds, rest) ↔
      cs = ds ++ rest ∧ (∀ c ∈ ds, c.isDigit = true) ∧ least ≤ ds.length ∧ ds.length ≤ most ∧
        (ds.length = most ∨ ∀ c ∈ rest.head?, c.isDigit = false) := by
  constructor
  · intro h
    simp only [digits] at h
    split_ifs at h with hbytes hleast
    cases h
    have hprefix : (cs.take most).takeWhile Char.isDigit <+: cs :=
      (List.takeWhile_prefix _).trans (List.take_prefix most cs)
    have hmost : ((cs.take most).takeWhile Char.isDigit).length ≤ most :=
      (List.takeWhile_prefix _).length_le.trans (List.length_take_le most cs)
    refine ⟨?_, fun c hc => List.mem_takeWhile_imp hc, not_lt.mp hleast, hmost, ?_⟩
    · rw [← List.prefix_append_drop hprefix]
    · rcases hmost.lt_or_eq with hlt | heq
      · exact .inr (head?_drop_takeWhile cs hlt)
      · exact .inl heq
  · rintro ⟨rfl, hd, hl, hm, hr⟩
    exact digits_append hd hl hm hr

/-- A number of fixed width is read from its padded form and from nothing else. -/
theorem number_eq_ok_iff {w n : ℕ} (hw : 0 < w) :
    number w w cs = .ok (n, rest) ↔ n < 10 ^ w ∧ cs = padded w n ++ rest := by
  rw [number, map_eq_ok_iff]
  constructor
  · rintro ⟨ds, hread, rfl⟩
    obtain ⟨rfl, hd, hl, hm, -⟩ := digits_eq_ok_iff.mp hread
    obtain rfl : ds.length = w := le_antisymm hm hl
    have hpadded := Numeral.padded_value hd (List.length_pos_iff.mp hw)
    exact ⟨Numeral.value_lt hd, by rw [hpadded]⟩
  · rintro ⟨hn, rfl⟩
    have hlen := Numeral.length_padded hw hn
    refine ⟨padded w n, ?_, Numeral.value_padded w n⟩
    exact digits_append (fun _ => Numeral.isDigit_of_mem_padded) hlen.ge hlen.le (.inl hlen)

/-- A number of fixed width is read back. -/
lemma number_padded {w n : ℕ} (hw : 0 < w) (hn : n < 10 ^ w) (rest : List Char) :
    number w w (padded w n ++ rest) = .ok (n, rest) :=
  (number_eq_ok_iff hw).mpr ⟨hn, rfl⟩

/-- Exactly an allowed character is taken. -/
theorem characterOf_eq_ok_iff {allowed : List Char} {c : Char} :
    characterOf allowed cs = .ok (c, rest) ↔ c ∈ allowed ∧ cs = c :: rest := by
  cases cs with
  | nil => simp [characterOf]
  | cons d cs =>
      simp only [characterOf]
      split_ifs with hd
      · simp only [Except.ok.injEq, Prod.mk.injEq, List.cons.injEq]
        constructor
        · rintro ⟨rfl, rfl⟩
          exact ⟨hd, rfl, rfl⟩
        · rintro ⟨-, rfl, rfl⟩
          exact ⟨rfl, rfl⟩
      · simp only [List.cons.injEq, false_iff, not_and]
        rintro hc rfl
        exact absurd hc hd

/-- An allowed character is taken. -/
lemma characterOf_cons {allowed : List Char} {c : Char} (h : c ∈ allowed) (rest : List Char) :
    characterOf allowed (c :: rest) = .ok (c, rest) :=
  characterOf_eq_ok_iff.mpr ⟨h, rfl⟩

/-- Exactly the character asked for is taken. -/
lemma character_eq_ok_iff {c d : Char} :
    character c cs = .ok (d, rest) ↔ d = c ∧ cs = c :: rest := by
  rw [character, characterOf_eq_ok_iff, List.mem_singleton]
  exact and_congr_right fun h => by rw [h]

/-- The character asked for is taken. -/
lemma character_cons (c : Char) (rest : List Char) : character c (c :: rest) = .ok (c, rest) :=
  character_eq_ok_iff.mpr ⟨rfl, rfl⟩

lemma discard_eq_ok_iff {α : Type} {x : Reading α} {u : Unit} :
    (discard x) cs = .ok (u, rest) ↔ ∃ a, x cs = .ok (a, rest) := by
  have hmap : (discard x : Reading Unit) = (fun _ => ()) <$> x := rfl
  rw [hmap, map_eq_ok_iff]
  simp

/-! ### Fractions -/

/-- A decimal part of a second and the nanoseconds it stands for: nothing, or a point and digits, of
which those behind the ninth are cut off. -/
inductive SpellsFraction : List Char → ℕ → Prop where
  /-- No fraction. -/
  | none : SpellsFraction [] 0
  /-- A point and digits. -/
  | point {ds : List Char} (digits : ∀ c ∈ ds, c.isDigit = true) (some : ds ≠ []) :
      SpellsFraction ('.' :: ds) (Numeral.value ds * 10 ^ 9 / 10 ^ ds.length)

/-- The first nine digits of a fraction tell its nanoseconds. -/
lemma nano_of_take {ds : List Char} (hd : ∀ c ∈ ds, c.isDigit = true) :
    Numeral.value (ds.take 9) * Nat.pow 10 (9 - (ds.take 9).length) =
      Numeral.value ds * 10 ^ 9 / 10 ^ ds.length := by
  rcases Nat.le_total ds.length 9 with hle | hge
  · -- all digits count, and the missing ones are zeros
    have hpow : 10 ^ 9 = 10 ^ (9 - ds.length) * 10 ^ ds.length := by
      rw [← Nat.pow_add, Nat.sub_add_cancel hle]
    rw [List.take_of_length_le hle, hpow, ← Nat.mul_assoc,
      Nat.mul_div_cancel _ (Nat.pow_pos (by norm_num))]
    rfl
  · -- what stands behind the ninth digit is less than one of its units
    have hvalue := Numeral.value_append (ds.take 9) (ds.drop 9)
    have hlt : Numeral.value (ds.drop 9) < 10 ^ (ds.drop 9).length :=
      Numeral.value_lt fun c hc => hd c (List.mem_of_mem_drop hc)
    have hlen : 10 ^ ds.length = 10 ^ (ds.drop 9).length * 10 ^ 9 := by
      rw [← Nat.pow_add, List.length_drop, Nat.sub_add_cancel hge]
    have hnine : (ds.take 9).length = 9 := List.length_take_of_le hge
    rw [List.take_append_drop] at hvalue
    rw [hnine, hlen, Nat.mul_div_mul_right _ _ (by norm_num), hvalue,
      Nat.mul_add_div (Nat.pow_pos (by norm_num)), Nat.div_eq_of_lt hlt]
    exact Nat.mul_one _

/-- Behind a point at most nine digits count, and more are passed over. -/
lemma fraction_point (cs : List Char) :
    fraction ('.' :: cs) = (digits 1 9 >>= fun ds => do
      modify (List.dropWhile Char.isDigit)
      return Numeral.value ds * Nat.pow 10 (9 - ds.length) : Reading ℕ) cs :=
  rfl

/-- Without a point there is no fraction. -/
lemma fraction_of_ne_point (h : ∀ c ∈ cs.head?, c ≠ '.') : fraction cs = .ok (0, cs) := by
  have hget : (get : Reading (List Char)) cs = .ok (cs, cs) := rfl
  rw [fraction, bind_of_eq_ok hget]
  split
  next => exact absurd rfl (h '.' rfl)
  next => rfl

/-- A fraction is read if neither a point nor a digit follows. -/
lemma fraction_append {nano : ℕ} (h : SpellsFraction cs nano)
    (hr : ∀ c ∈ rest.head?, c.isDigit = false ∧ c ≠ '.') :
    fraction (cs ++ rest) = .ok (nano, rest) := by
  cases h with
  | none => exact fraction_of_ne_point fun c hc => (hr c hc).2
  | @point ds hd hne =>
      have hpos := List.length_pos_iff.mpr hne
      have hread : digits 1 9 (ds.take 9 ++ (ds.drop 9 ++ rest)) =
          .ok (ds.take 9, ds.drop 9 ++ rest) := by
        refine digits_append (fun c hc => hd c (List.mem_of_mem_take hc)) ?_
          (List.length_take_le 9 ds) ?_
        · rw [List.length_take]
          omega
        · rcases Nat.lt_or_ge ds.length 9 with hlt | hge
          · rw [List.drop_of_length_le hlt.le]
            exact .inr fun c hc => (hr c hc).1
          · exact .inl (List.length_take_of_le hge)
      have hend : (ds.drop 9 ++ rest).dropWhile Char.isDigit = rest :=
        Text.dropWhile_run (fun c hc => hd c (List.mem_of_mem_drop hc)) fun c hc => (hr c hc).1
      have hpassed : (modify (List.dropWhile Char.isDigit) : Reading Unit) (ds.drop 9 ++ rest) =
          .ok ((), rest) := congrArg (fun tail => Except.ok ((), tail)) hend
      rw [← List.append_assoc, List.take_append_drop] at hread
      rw [List.cons_append, fraction_point, bind_of_eq_ok hread, bind_of_eq_ok hpassed,
        ← nano_of_take hd]
      rfl

/-- Where up to nine digits were taken, they are the first ones of all the digits in front. -/
lemma exists_digits {ds mid : List Char} (h : digits 1 9 cs = .ok (ds, mid)) :
    ∃ all, (∀ c ∈ all, c.isDigit = true) ∧ all ≠ [] ∧ all.take 9 = ds ∧
      cs = all ++ mid.dropWhile Char.isDigit := by
  obtain ⟨rfl, hd, hl, hm, hstop⟩ := digits_eq_ok_iff.mp h
  refine ⟨ds ++ mid.takeWhile Char.isDigit, fun c hc => ?_, ?_, ?_, ?_⟩
  · exact (List.mem_append.mp hc).elim (hd c) List.mem_takeWhile_imp
  · exact List.append_ne_nil_of_left_ne_nil (List.length_pos_iff.mp hl) _
  · rcases hstop with hnine | hstop
    · rw [← hnine, List.take_left]
    · have hnone : mid.takeWhile Char.isDigit = [] := @Text.takeWhile_run _ [] mid nofun hstop
      rw [hnone, List.append_nil, List.take_of_length_le hm]
  · rw [List.append_assoc, List.takeWhile_append_dropWhile]

/-- What is read as a fraction is one. -/
lemma spellsFraction_of_fraction {nano : ℕ} (h : fraction cs = .ok (nano, rest)) :
    ∃ text, SpellsFraction text nano ∧ cs = text ++ rest := by
  by_cases hpoint : ∃ tail, cs = '.' :: tail
  · obtain ⟨tail, rfl⟩ := hpoint
    rw [fraction_point] at h
    obtain ⟨ds, mid, hread, hvalue⟩ := bind_eq_ok_iff.mp h
    obtain ⟨all, hall, hne, rfl, rfl⟩ := exists_digits hread
    cases hvalue
    refine ⟨'.' :: all, ?_, rfl⟩
    rw [nano_of_take hall]
    exact .point hall hne
  · have hhead : ∀ c ∈ cs.head?, c ≠ '.' := by
      rintro c hc rfl
      exact hpoint ⟨cs.tail, (List.cons_head?_tail hc).symm⟩
    rw [fraction_of_ne_point hhead] at h
    cases h
    exact ⟨[], .none, rfl⟩

/-! ### Offsets -/

/-- A distance to universal time and the minutes it stands for: the letter Z, or a sign, two digits
of hours, a colon and two digits of minutes up to 59. -/
inductive SpellsOffset : List Char → ℤ → Prop where
  /-- Universal time. -/
  | zulu {c : Char} (letter : c = 'Z' ∨ c = 'z') : SpellsOffset [c] 0
  /-- A clock that is ahead. -/
  | east {hours minutes : ℕ} (hours_lt : hours < 100) (minutes_lt : minutes < 60) :
      SpellsOffset ('+' :: (padded 2 hours ++ ':' :: padded 2 minutes)) (60 * hours + minutes : ℕ)
  /-- A clock that is behind. -/
  | west {c : Char} {hours minutes : ℕ} (sign : c = '-' ∨ c = '−') (hours_lt : hours < 100)
      (minutes_lt : minutes < 60) :
      SpellsOffset (c :: (padded 2 hours ++ ':' :: padded 2 minutes)) (-(60 * hours + minutes : ℕ))

/-- A sign, hours and minutes are read as a distance. -/
lemma offset_signed {mark : Char} {hours minutes : ℕ} (hmark : mark ∈ ['+', '-', '−'])
    (hh : hours < 100) (hm : minutes < 60) (rest : List Char) :
    offset (discard (character ':')) (mark :: (padded 2 hours ++ ':' :: (padded 2 minutes ++ rest)))
      = .ok (if mark = '+' then (60 * hours + minutes : ℕ) else -(60 * hours + minutes : ℕ), rest) := by
  have hallowed : mark ∈ ['Z', 'z', '+', '-', '−'] :=
    List.mem_cons_of_mem _ (List.mem_cons_of_mem _ hmark)
  have hsigned : ¬ (mark = 'Z' ∨ mark = 'z') := by
    simp only [List.mem_cons, List.not_mem_nil, or_false] at hmark
    rcases hmark with rfl | rfl | rfl <;> decide
  have hcolon : discard (character ':') (':' :: (padded 2 minutes ++ rest)) =
      .ok ((), padded 2 minutes ++ rest) :=
    discard_eq_ok_iff.mpr ⟨':', character_cons ':' _⟩
  rw [offset, bind_of_eq_ok (characterOf_cons hallowed _), if_neg hsigned,
    bind_of_eq_ok (number_padded (by norm_num) (by omega) _), bind_of_eq_ok hcolon,
    bind_of_eq_ok (number_padded (by norm_num) (by omega) _), if_pos hm]
  rfl

/-- Exactly the distances are read. -/
theorem offset_eq_ok_iff {o : ℤ} :
    offset (discard (character ':')) cs = .ok (o, rest) ↔
      ∃ zone, SpellsOffset zone o ∧ cs = zone ++ rest := by
  constructor
  · intro hread
    rw [offset] at hread
    obtain ⟨mark, mid, hmark, hzone⟩ := bind_eq_ok_iff.mp hread
    obtain ⟨hallowed, rfl⟩ := characterOf_eq_ok_iff.mp hmark
    by_cases hzulu : mark = 'Z' ∨ mark = 'z'
    · rw [if_pos hzulu] at hzone
      obtain ⟨rfl, rfl⟩ := pure_eq_ok_iff.mp hzone
      exact ⟨[mark], .zulu hzulu, rfl⟩
    · rw [if_neg hzulu] at hzone
      obtain ⟨hours, behindHours, hhours, htail⟩ := bind_eq_ok_iff.mp hzone
      obtain ⟨_, behindColon, hcolon, htail'⟩ := bind_eq_ok_iff.mp htail
      obtain ⟨minutes, behindMinutes, hminutes, hvalue⟩ := bind_eq_ok_iff.mp htail'
      obtain ⟨hlt, rfl⟩ := (number_eq_ok_iff (by norm_num)).mp hhours
      obtain ⟨colon, hcharacter⟩ := discard_eq_ok_iff.mp hcolon
      obtain ⟨-, rfl⟩ := character_eq_ok_iff.mp hcharacter
      obtain ⟨-, rfl⟩ := (number_eq_ok_iff (by norm_num)).mp hminutes
      by_cases hsixty : minutes < 60
      · rw [if_pos hsixty] at hvalue
        obtain ⟨rfl, rfl⟩ := pure_eq_ok_iff.mp hvalue
        by_cases heast : mark = '+'
        · subst heast
          exact ⟨_, .east hlt hsixty, by simp⟩
        · have hwest : mark = '-' ∨ mark = '−' := by
            simp only [List.mem_cons, List.not_mem_nil, or_false] at hallowed
            rcases hallowed with hZ | hz | hplus | hminus
            · exact absurd (.inl hZ) hzulu
            · exact absurd (.inr hz) hzulu
            · exact absurd hplus heast
            · exact hminus
          rw [if_neg heast]
          exact ⟨_, .west hwest hlt hsixty, by simp⟩
      · rw [if_neg hsixty] at hvalue
        cases hvalue
  · rintro ⟨zone, hzone, rfl⟩
    cases hzone with
    | @zulu c hc =>
        have hallowed : c ∈ ['Z', 'z', '+', '-', '−'] := by rcases hc with rfl | rfl <;> decide
        rw [List.cons_append, offset, bind_of_eq_ok (characterOf_cons hallowed _), if_pos hc]
        rfl
    | @east hours minutes hh hm =>
        have hread := @offset_signed '+' _ _ (by decide) hh hm rest
        simpa using hread
    | @west c hours minutes hc hh hm =>
        have hsign : c ∈ ['+', '-', '−'] := by rcases hc with rfl | rfl <;> decide
        have hne : c ≠ '+' := by rcases hc with rfl | rfl <;> decide
        have hread := offset_signed hsign hh hm rest
        rw [if_neg hne] at hread
        simpa using hread

/-- A distance begins with something else than a digit or a point. -/
lemma SpellsOffset.head? {zone : List Char} {o : ℤ} (h : SpellsOffset zone o) :
    ∀ c ∈ (zone ++ rest).head?, c.isDigit = false ∧ c ≠ '.' := by
  intro d hd
  cases h with
  | @zulu c hc =>
      cases hd
      rcases hc with rfl | rfl <;> decide
  | east =>
      cases hd
      decide
  | @west c _ _ hc =>
      cases hd
      rcases hc with rfl | rfl <;> decide

/-! ### Days and times -/

lemma day_eq_ok_iff {year : ℤ} {month dayOfMonth : ℕ} {d : Date} :
    day year month dayOfMonth cs = .ok (d, rest) ↔
      (d.year = year ∧ d.month = month ∧ d.day = dayOfMonth) ∧ cs = rest := by
  constructor
  · intro h
    rcases hdate : Date.ofCivil? year month dayOfMonth with _ | date
    · simp only [day, hdate] at h
      cases h
    · simp only [day, hdate] at h
      obtain ⟨rfl, rfl⟩ := pure_eq_ok_iff.mp h
      exact ⟨Date.eq_of_ofCivil? hdate, rfl⟩
  · rintro ⟨⟨rfl, rfl, rfl⟩, rfl⟩
    simp only [day, Date.ofCivil?_self]
    rfl

/-- Exactly the minutes of a day are taken. -/
lemma minuteOfDay_eq_ok_iff {hour minute second n : ℕ} :
    minuteOfDay hour minute second cs = .ok (n, rest) ↔
      (n < 1440 ∧ second ≤ 60 ∧ hour = n / 60 ∧ minute = n % 60) ∧ cs = rest := by
  rw [minuteOfDay]
  by_cases hclock : hour < 24 ∧ minute < 60 ∧ second ≤ 60
  · rw [if_pos hclock, pure_eq_ok_iff]
    refine and_congr_left fun _ => ?_
    constructor
    · rintro rfl
      omega
    · omega
  · rw [if_neg hclock]
    constructor
    · intro h
      cases h
    · rintro ⟨hn, -⟩
      omega

/-- Exactly the days of the years 0 to 9999 are read, four digits of the year in front. -/
theorem storedDay_eq_ok_iff {d : Date} :
    storedDay cs = .ok (d, rest) ↔ (0 ≤ d.year ∧ d.year ≤ 9999) ∧
      cs = padded 4 d.year.toNat ++
        '-' :: (padded 2 d.month ++ '-' :: (padded 2 d.day ++ rest)) := by
  constructor
  · intro hread
    rw [storedDay] at hread
    simp only [bind_eq_ok_iff] at hread
    obtain ⟨year, _, hyear, _, _, hdash, month, _, hmonth, _, _, hdash', dayOfMonth, _, hday,
      hdate⟩ := hread
    obtain ⟨hlt, rfl⟩ := (number_eq_ok_iff (by norm_num)).mp hyear
    obtain ⟨-, rfl⟩ := character_eq_ok_iff.mp hdash
    obtain ⟨-, rfl⟩ := (number_eq_ok_iff (by norm_num)).mp hmonth
    obtain ⟨-, rfl⟩ := character_eq_ok_iff.mp hdash'
    obtain ⟨-, rfl⟩ := (number_eq_ok_iff (by norm_num)).mp hday
    obtain ⟨⟨hy, rfl, rfl⟩, rfl⟩ := day_eq_ok_iff.mp hdate
    rw [hy, Int.toNat_natCast]
    exact ⟨by omega, rfl⟩
  · rintro ⟨⟨hnonneg, hle⟩, rfl⟩
    obtain ⟨-, ⟨hm, hm'⟩, hd, hd'⟩ := d.exists_day
    have hlast := daysIn_le d.year d.month
    have hyear : d.year = (d.year.toNat : ℕ) := (Int.toNat_of_nonneg hnonneg).symm
    rw [storedDay]
    rw [bind_of_eq_ok (number_padded (by norm_num) (by norm_num; omega) _),
      bind_of_eq_ok (character_cons _ _),
      bind_of_eq_ok (number_padded (by norm_num) (by norm_num; omega) _),
      bind_of_eq_ok (character_cons _ _),
      bind_of_eq_ok (number_padded (by norm_num) (by norm_num; omega) _)]
    exact day_eq_ok_iff.mpr ⟨⟨hyear, rfl, rfl⟩, rfl⟩

/-! ### The stored form -/

/-- The day and the time of day up to the seconds. -/
def stampText (f : Fields) (separator : Char) : List Char :=
  padded 4 f.date.year.toNat ++ '-' :: padded 2 f.date.month ++ '-' :: padded 2 f.date.day ++
    separator :: padded 2 (f.minute / 60) ++ ':' :: padded 2 (f.minute % 60) ++
    ':' :: padded 2 f.second

/-- A text in the stored form and what it says: a day of the years 0 to 9999, a time of day with a
second up to 60, a fraction of any length and a distance to universal time. -/
structure Spells (cs : List Char) (f : Fields) : Prop where
  /-- The year has four digits. -/
  year : 0 ≤ f.date.year ∧ f.date.year ≤ 9999
  /-- A clock shows the time. -/
  clock : f.minute < 1440 ∧ f.second ≤ 60
  /-- The pieces in their order. -/
  text : ∃ separator ∈ ['t', 'T', ' '], ∃ fraction zone, SpellsFraction fraction f.nano ∧
    SpellsOffset zone f.offset ∧ cs = stampText f separator ++ fraction ++ zone

/-- Exactly the texts in the stored form are read, and what follows is left. -/
theorem storedFields_eq_ok_iff {f : Fields} :
    storedFields cs = .ok (f, rest) ↔ ∃ text, Spells text f ∧ cs = text ++ rest := by
  constructor
  · intro hread
    rw [storedFields] at hread
    simp only [bind_eq_ok_iff] at hread
    obtain ⟨date, _, hdate, separator, _, hseparator, hour, _, hhour, _, _, hcolon, minute, _,
      hminute, _, _, hcolon', second, _, hsecond, nano, _, hnano, minuteOfDay, _, hclock, offset, _,
      hoffset, hfields⟩ := hread
    obtain ⟨hyear, rfl⟩ := storedDay_eq_ok_iff.mp hdate
    obtain ⟨hallowed, rfl⟩ := characterOf_eq_ok_iff.mp hseparator
    obtain ⟨-, rfl⟩ := (number_eq_ok_iff (by norm_num)).mp hhour
    obtain ⟨-, rfl⟩ := character_eq_ok_iff.mp hcolon
    obtain ⟨-, rfl⟩ := (number_eq_ok_iff (by norm_num)).mp hminute
    obtain ⟨-, rfl⟩ := character_eq_ok_iff.mp hcolon'
    obtain ⟨-, rfl⟩ := (number_eq_ok_iff (by norm_num)).mp hsecond
    obtain ⟨fraction, hfraction, rfl⟩ := spellsFraction_of_fraction hnano
    obtain ⟨⟨hlt, hsixty, rfl, rfl⟩, rfl⟩ := minuteOfDay_eq_ok_iff.mp hclock
    obtain ⟨zone, hzone, rfl⟩ := offset_eq_ok_iff.mp hoffset
    obtain ⟨rfl, rfl⟩ := pure_eq_ok_iff.mp hfields
    refine ⟨_, ⟨hyear, ⟨hlt, hsixty⟩, separator, hallowed, fraction, zone, hfraction, hzone, rfl⟩, ?_⟩
    simp [stampText]
  · rintro ⟨text, ⟨hyear, ⟨hlt, hsixty⟩, separator, hallowed, digits, zone, hfraction, hzone, rfl⟩, rfl⟩
    have htext : stampText f separator ++ digits ++ zone ++ rest =
        padded 4 f.date.year.toNat ++ '-' :: (padded 2 f.date.month ++ '-' :: (padded 2 f.date.day ++
          separator :: (padded 2 (f.minute / 60) ++ ':' :: (padded 2 (f.minute % 60) ++
            ':' :: (padded 2 f.second ++ (digits ++ (zone ++ rest))))))) := by
      simp [stampText]
    have hclock : minuteOfDay (f.minute / 60) (f.minute % 60) f.second (zone ++ rest) =
        .ok (f.minute, zone ++ rest) :=
      minuteOfDay_eq_ok_iff.mpr ⟨⟨hlt, hsixty, rfl, rfl⟩, rfl⟩
    have hoffset : offset (discard (character ':')) (zone ++ rest) = .ok (f.offset, rest) :=
      offset_eq_ok_iff.mpr ⟨zone, hzone, rfl⟩
    rw [storedFields]
    rw [htext, bind_of_eq_ok (storedDay_eq_ok_iff.mpr ⟨hyear, rfl⟩),
      bind_of_eq_ok (characterOf_cons hallowed _),
      bind_of_eq_ok (number_padded (by norm_num) (by norm_num; omega) _),
      bind_of_eq_ok (character_cons _ _),
      bind_of_eq_ok (number_padded (by norm_num) (by norm_num; omega) _),
      bind_of_eq_ok (character_cons _ _),
      bind_of_eq_ok (number_padded (by norm_num) (by norm_num; omega) _),
      bind_of_eq_ok (fraction_append hfraction hzone.head?), bind_of_eq_ok hclock,
      bind_of_eq_ok hoffset]
    rfl

/-- A text in the stored form has at least the characters up to the seconds. -/
lemma Spells.leastLength_le {f : Fields} (h : Spells cs f) : leastLength ≤ byteLength cs := by
  obtain ⟨hyear, hclock, separator, -, fraction, zone, -, -, rfl⟩ := h
  have hpadded : ∀ w n, w ≤ (padded w n).length := Numeral.le_length_padded
  refine le_trans ?_ (length_le_byteLength _)
  have h4 := hpadded 4 f.date.year.toNat
  have h2 := hpadded 2
  have hmonth := h2 f.date.month
  have hday := h2 f.date.day
  have hhour := h2 (f.minute / 60)
  have hminute := h2 (f.minute % 60)
  have hsecond := h2 f.second
  simp only [stampText, leastLength, List.length_append, List.length_cons]
  omega

/-! ### Instants -/

/-- The instant that a written date means: the one with the same second that lies the offset before
the local time. Clocks differ from universal time by less than a day. -/
structure Fields.Means (f : Fields) (t : Instant) : Prop where
  /-- Less than a day. -/
  offset : -1440 < f.offset ∧ f.offset < 1440
  /-- The same second of its minute. -/
  second : t.second = f.second
  /-- The same nanosecond. -/
  nano : t.nano = f.nano
  /-- The minutes of universal time and those ahead of it make those of the local time. -/
  minutes : t.minutes + f.offset = 1440 * f.date.number + f.minute

/-- A fraction is less than a second. -/
lemma SpellsFraction.nano_lt {nano : ℕ} (h : SpellsFraction cs nano) : nano < 1000000000 := by
  cases h with
  | none => norm_num
  | @point ds hd _ =>
      refine Nat.div_lt_of_lt_mul ?_
      exact Nat.mul_lt_mul_of_pos_right (Numeral.value_lt hd) (by norm_num)

lemma Spells.instant?_eq_some_iff {f : Fields} (h : Spells cs f) {t : Instant} :
    f.instant? = some t ↔ f.Means t := by
  obtain ⟨hyear, hclock, separator, -, fraction, zone, hfraction, -, rfl⟩ := h
  have hfirst : firstYear = -262143 := rfl
  have hlast : lastYear = 262142 := rfl
  rw [Fields.instant?]
  by_cases ho : -1440 < f.offset ∧ f.offset < 1440
  · rw [if_pos ho, Instant.ofLocal?_eq_some_iff (by omega) ⟨hclock.1, hclock.2, hfraction.nano_lt⟩ ho]
    exact ⟨fun ⟨hs, hn, hm⟩ => ⟨ho, hs, hn, hm⟩, fun hmeans => ⟨hmeans.2, hmeans.3, hmeans.4⟩⟩
  · rw [if_neg ho]
    exact ⟨nofun, fun hmeans => absurd hmeans.offset ho⟩

/-- **Reading the stored form**: a text is read as an instant exactly if it is in the stored form and
means this instant. -/
theorem read_eq_ok_iff {s : String} {t : Instant} :
    read s = .ok t ↔ ∃ f, Spells s.toList f ∧ f.Means t := by
  constructor
  · intro hread
    simp only [read, whole] at hread
    split_ifs at hread
    split at hread
    next => cases hread
    next f hfields =>
      obtain ⟨text, hspells, heq⟩ := storedFields_eq_ok_iff.mp hfields
      rw [List.append_nil] at heq
      obtain rfl := heq
      split at hread
      next u hinstant =>
        cases hread
        exact ⟨f, hspells, hspells.instant?_eq_some_iff.mp hinstant⟩
      next => cases hread
    next => cases hread
  · rintro ⟨f, hspells, hmeans⟩
    have hfields : storedFields s.toList = .ok (f, []) :=
      storedFields_eq_ok_iff.mpr ⟨_, hspells, (List.append_nil _).symm⟩
    have hinstant : f.instant? = some t := hspells.instant?_eq_some_iff.mpr hmeans
    simp only [read]
    rw [if_neg (Nat.not_lt.mpr hspells.leastLength_le), whole, hfields]
    simp only [hinstant]

end FilterStore.Timestamp
