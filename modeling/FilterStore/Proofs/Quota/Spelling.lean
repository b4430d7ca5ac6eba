import Mathlib.Tactic
import Mathlib.Data.List.DropRight
import Mathlib.Data.List.Forall2
import FilterStore.Proofs.Text.Numerals
import FilterStore.Quota.Basic
import FilterStore.Quota.Reading

/-!
Which texts are limits, and which limits they are.

* **The text without its blanks.** `Text.Trimmed` says what it means to take the blanks off both
  ends of a text, and `Text.trim` does this (`Text.trimmed_trim`).
* **The word.** `Limit.SpellsUnlimited` compares with the word for no limit letter by letter, in
  either case (`Limit.sameLetters_iff`).
* **Limits.** Every text is one of the two or is refused by name (`Limit.read_grammar`), and every
  limit is read back from its text (`Limit.read_text`).
-/

namespace FilterStore

/-! ### The text without its blanks -/

namespace Text

/-- The text in the middle is what is left without the blanks at both ends. -/
structure Trimmed (cs middle : List Char) : Prop where
  /-- Nothing but blanks is taken off. -/
  parts : ∃ front back, cs = front ++ middle ++ back ∧
    (∀ c ∈ front, isBlank c = true) ∧ ∀ c ∈ back, isBlank c = true
  /-- What is left does not begin with a blank. -/
  first : ∀ c ∈ middle.head?, isBlank c = false
  /-- What is left does not end with a blank. -/
  last : ∀ c ∈ middle.getLast?, isBlank c = false

lemma trimEnd_eq_rdropWhile (cs : List Char) : trimEnd cs = cs.rdropWhile isBlank := rfl

/-- Without the blanks in front a text does not begin with a blank. -/
lemma isBlank_head_trimStart (cs : List Char) : ∀ c ∈ (trimStart cs).head?, isBlank c = false := by
  intro c hc
  have h := List.head?_dropWhile_not isBlank cs
  rw [← trimStart, Option.mem_def.mp hc] at h
  exact h

/-- Trimming takes off the blanks at both ends and nothing else. -/
theorem trimmed_trim (cs : List Char) : Trimmed cs (trim cs) where
  parts := by
    refine ⟨cs.takeWhile isBlank, (trimStart cs).rtakeWhile isBlank, ?_,
      fun c => List.mem_takeWhile_imp, fun c => List.mem_rtakeWhile_imp⟩
    rw [List.append_assoc, trim, trimEnd_eq_rdropWhile, List.rdropWhile_append_rtakeWhile, trimStart,
      List.takeWhile_append_dropWhile]
  first := by
    intro c hc
    -- what is left begins as the text without the blanks in front
    obtain ⟨back, hback⟩ : trim cs <+: trimStart cs := List.rdropWhile_prefix isBlank (trimStart cs)
    refine isBlank_head_trimStart cs c ?_
    rw [← hback, List.head?_append, Option.mem_def.mp hc]
    rfl
  last := by
    intro c hc
    obtain ⟨hne, rfl⟩ := List.mem_getLast?_eq_getLast hc
    exact Bool.eq_false_iff.mpr (List.rdropWhile_last_not isBlank (trimStart cs) hne)

end Text

namespace Limit

/-! ### The word -/

/-- The text is the word for no limit, each letter in either case. -/
def SpellsUnlimited (cs : List Char) : Prop :=
  List.Forall₂ (fun c letter => c = letter ∨ c = Char.toUpper letter) cs unlimitedWord

/-- The capital of a small letter stands 32 places before it. -/
lemma toNat_toUpper {d : Char} (hd : 97 ≤ d.toNat ∧ d.toNat ≤ 122) :
    d.toUpper.toNat + 32 = d.toNat := by
  have hrange : 'a'.val ≤ d.val ∧ d.val ≤ 'z'.val := hd
  have hval : d.toUpper.val = d.val + ('A'.val - 'a'.val) := by
    delta Char.toUpper
    rw [dif_pos hrange]
  have hshift : ('A'.val - 'a'.val).toNat = 2 ^ 32 - 32 := rfl
  have hlt := d.val.toNat_lt
  change 97 ≤ d.val.toNat ∧ d.val.toNat ≤ 122 at hd
  change d.toUpper.val.toNat + 32 = d.val.toNat
  rw [hval, UInt32.toNat_add, hshift]
  omega

/-- Small letters stand for capitals, and all else stays. -/
lemma toNat_toLower (c : Char) :
    c.toLower.toNat = if 65 ≤ c.toNat ∧ c.toNat ≤ 90 then c.toNat + 32 else c.toNat := by
  by_cases hc : 65 ≤ c.toNat ∧ c.toNat ≤ 90
  · have hrange : c.val ≥ 'A'.val ∧ c.val ≤ 'Z'.val := hc
    have hval : c.toLower.val = c.val + ('a'.val - 'A'.val) := by
      delta Char.toLower
      rw [dif_pos hrange]
    have hshift : ('a'.val - 'A'.val).toNat = 32 := rfl
    rw [if_pos hc]
    change 65 ≤ c.val.toNat ∧ c.val.toNat ≤ 90 at hc
    change c.toLower.val.toNat = c.val.toNat + 32
    rw [hval, UInt32.toNat_add, hshift]
    omega
  · have hrange : ¬ (c.val ≥ 'A'.val ∧ c.val ≤ 'Z'.val) := hc
    rw [if_neg hc]
    delta Char.toLower
    rw [dif_neg hrange]

/-- Only a small letter and its capital are this letter in small. -/
lemma toLower_eq_iff {c d : Char} (hd : 97 ≤ d.toNat ∧ d.toNat ≤ 122) :
    c.toLower = d ↔ c = d ∨ c = d.toUpper := by
  have hup := toNat_toUpper hd
  have hlow := toNat_toLower c
  rw [← Char.toNat_inj, ← Char.toNat_inj, ← Char.toNat_inj, hlow]
  split_ifs <;> omega

/-- The comparison in small letters compares letter by letter. -/
lemma sameLetters_iff {cs : List Char} :
    sameLetters cs unlimitedWord = true ↔ SpellsUnlimited cs := by
  have hword : unlimitedWord.map Char.toLower = unlimitedWord := by decide
  have hsmall : (unlimitedWord.all fun d => 97 ≤ d.toNat ∧ d.toNat ≤ 122) = true := by decide
  rw [sameLetters, beq_iff_eq, hword, ← List.forall₂_eq_eq_eq, List.forall₂_map_left_iff,
    SpellsUnlimited, List.forall₂_iff_zip, List.forall₂_iff_zip]
  refine and_congr_right fun _ => forall₂_congr fun c d => imp_congr_right fun hcd => ?_
  exact toLower_eq_iff (of_decide_eq_true (List.all_eq_true.mp hsmall d (List.of_mem_zip hcd).2))

/-- The word for no limit begins with no digit and no sign, so it is no numeral. -/
lemma not_denotes_of_spellsUnlimited {cs : List Char} (h : SpellsUnlimited cs) (n : ℕ) :
    ¬ Numeral.Denotes cs n := by
  rintro ⟨ds, hcs, hne, hdigits, -⟩
  have hhead : ∃ c rest, cs = c :: rest ∧ (c = 'u' ∨ c = 'U') := by
    cases h with
    | cons hc hrest => exact ⟨_, _, rfl, hc⟩
  obtain ⟨c, rest, rfl, hc⟩ := hhead
  rcases hcs with rfl | hcs
  · have hdigit := hdigits c List.mem_cons_self
    rcases hc with rfl | rfl <;> exact absurd hdigit (by decide)
  · rw [(List.cons.inj hcs).1] at hc
    exact absurd hc (by decide)

/-! ### Limits -/

/-- The word for no limit is read as no limit. -/
lemma read_of_spellsUnlimited {s : String} (h : SpellsUnlimited (Text.trim s.toList)) :
    read s = .ok .unlimited := by
  rw [read]
  exact if_pos (sameLetters_iff.mpr h)

/-- All else is read as a numeral or refused. -/
lemma read_of_not_spellsUnlimited {s : String} (h : ¬ SpellsUnlimited (Text.trim s.toList)) :
    read s = match Numeral.readUnsigned (Text.trim s.toList) with
      | .ok count => .ok (.bytes count)
      | .error _ => .error (.notALimit (String.ofList (Text.trim s.toList))) := by
  rw [read]
  exact if_neg (mt sameLetters_iff.mp h)

/-- A numeral of a value below `2^64` is read as this number of bytes. -/
lemma read_of_denotes {s : String} {v : UInt64}
    (h : Numeral.Denotes (Text.trim s.toList) v.toNat) : read s = .ok (.bytes v) := by
  rw [read_of_not_spellsUnlimited fun hword => not_denotes_of_spellsUnlimited hword _ h,
    Numeral.readUnsigned_eq_ok_iff.mpr h]

/-- What is neither the word nor a numeral of a value below `2^64` is refused by name. -/
lemma read_of_neither {s : String} (hword : ¬ SpellsUnlimited (Text.trim s.toList))
    (hnumeral : ∀ v : UInt64, ¬ Numeral.Denotes (Text.trim s.toList) v.toNat) :
    read s = .error (.notALimit (String.ofList (Text.trim s.toList))) := by
  rw [read_of_not_spellsUnlimited hword]
  cases hread : Numeral.readUnsigned (Text.trim s.toList) with
  | ok v => exact absurd (Numeral.readUnsigned_eq_ok_iff.mp hread) (hnumeral v)
  | error fault => rfl

/-- Every text is the word, a numeral of a value below `2^64`, or neither, and is read as such. -/
lemma read_cases (s : String) :
    (SpellsUnlimited (Text.trim s.toList) ∧ read s = .ok .unlimited) ∨
    (∃ v : UInt64, Numeral.Denotes (Text.trim s.toList) v.toNat ∧ read s = .ok (.bytes v)) ∨
    (¬ SpellsUnlimited (Text.trim s.toList) ∧
      (∀ v : UInt64, ¬ Numeral.Denotes (Text.trim s.toList) v.toNat) ∧
      read s = .error (.notALimit (String.ofList (Text.trim s.toList)))) := by
  by_cases hword : SpellsUnlimited (Text.trim s.toList)
  · exact .inl ⟨hword, read_of_spellsUnlimited hword⟩
  by_cases hnumeral : ∃ v : UInt64, Numeral.Denotes (Text.trim s.toList) v.toNat
  · obtain ⟨v, hv⟩ := hnumeral
    exact .inr (.inl ⟨v, hv, read_of_denotes hv⟩)
  · have hnone := not_exists.mp hnumeral
    exact .inr (.inr ⟨hword, hnone, read_of_neither hword hnone⟩)

/-- Every limit is read back from its text. -/
theorem read_text (limit : Limit) : read limit.text = .ok limit := by
  cases limit with
  | unlimited => rfl
  | bytes count =>
      have htrim : Text.trim (Limit.bytes count).text.toList = Numeral.decimal count.toNat := by
        rw [text, Numeral.toString_eq_decimal, String.toList_ofList]
        exact Text.trim_eq_self fun c hc =>
          Numeral.isBlank_of_isDigit (Numeral.isDigit_of_mem_decimal hc)
      refine read_of_denotes ?_
      rw [htrim]
      exact Numeral.denotes_decimal count.toNat

/-- **The grammar of limits**: of a text without the blanks at its ends, the word for no limit in
any case of its letters is no limit, a numeral of a value below `2^64` is that number of bytes, and
everything else is refused and quoted. Every limit is read back from its text, so every text that is
read has another spelling that reads the same. -/
theorem read_grammar (s : String) :
    Text.Trimmed s.toList (Text.trim s.toList) ∧
    (read s = .ok .unlimited ↔ SpellsUnlimited (Text.trim s.toList)) ∧
    (∀ v : UInt64, read s = .ok (.bytes v) ↔ Numeral.Denotes (Text.trim s.toList) v.toNat) ∧
    (∀ e : Failure, read s = .error e ↔
      ¬ SpellsUnlimited (Text.trim s.toList) ∧
        (∀ v : UInt64, ¬ Numeral.Denotes (Text.trim s.toList) v.toNat) ∧
        e = .notALimit (String.ofList (Text.trim s.toList))) ∧
    (∀ word, (Failure.notALimit word).message =
      "invalid argument: '" ++ word ++ "' is not a byte count or 'unlimited'") ∧
    (∀ limit : Limit, read limit.text = .ok limit) ∧
    ∀ limit : Limit, read s = .ok limit → read limit.text = read s := by
  have hagain : ∀ limit : Limit, read s = .ok limit → read limit.text = read s := by
    intro limit h
    rw [h, read_text]
  refine ⟨Text.trimmed_trim s.toList, ?_, ?_, ?_, fun _ => rfl, read_text, hagain⟩
  · rcases read_cases s with ⟨hword, hread⟩ | ⟨v, hv, hread⟩ | ⟨hword, -, hread⟩
    · exact iff_of_true hread hword
    · refine iff_of_false (by simp [hread]) fun hword => ?_
      exact not_denotes_of_spellsUnlimited hword _ hv
    · exact iff_of_false (by simp [hread]) hword
  · intro v
    refine ⟨fun h => ?_, read_of_denotes⟩
    rcases read_cases s with ⟨-, hread⟩ | ⟨w, hw, hread⟩ | ⟨-, -, hread⟩
    · simp [hread] at h
    · obtain rfl : w = v := by simpa [hread] using h
      exact hw
    · simp [hread] at h
  · intro e
    refine ⟨fun h => ?_, ?_⟩
    · rcases read_cases s with ⟨-, hread⟩ | ⟨w, -, hread⟩ | ⟨hword, hnumeral, hread⟩
      · simp [hread] at h
      · simp [hread] at h
      · obtain rfl : Failure.notALimit (String.ofList (Text.trim s.toList)) = e := by simpa [hread] using h
        exact ⟨hword, hnumeral, rfl⟩
    · rintro ⟨hword, hnumeral, rfl⟩
      exact read_of_neither hword hnumeral

end Limit

end FilterStore
