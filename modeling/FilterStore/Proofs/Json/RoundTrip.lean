import Mathlib.Tactic
import FilterStore.Json.Codec
import FilterStore.Proofs.Json.Spelling
import FilterStore.Proofs.Time.Exchange

/-!
Scripts, summaries and limits are read back from their JSON.

* **Fields.** Each kind of field is read back from its value: numbers to `2^64 - 1`
  (`unsigned?_ofUnsigned`) and dates of any year (`date?_writeZulu`).
* **Objects.** What is written for a script or summary is read as an object with exactly its members
  (`Script.read?_json`, `Summary.read?_json`).
* **Values.** Reading undoes writing for every script, summary and limit (`Script.ofJson?_json`,
  `Summary.ofJson?_json`, `Limit.ofJson?_json`). A missing date of activation has no member, and
  where the member is missing there is no date. A text that is accepted is therefore rewritten to a
  form that further rounds keep (`written_values_read_back`).
-/

namespace FilterStore

open Json

/-! ### Fields -/

namespace Json

lemma isDigits_decimal (n : ℕ) : isDigits (Numeral.decimal n) = true := by
  simp only [isDigits, Bool.and_eq_true, Bool.not_eq_true', List.isEmpty_eq_false_iff,
    List.all_eq_true]
  exact ⟨Numeral.decimal_ne_nil n, fun _ => Numeral.isDigit_of_mem_decimal⟩

/-- The digits of a number are a number as JSON has it, without zeros in front. -/
lemma isNumber_decimal (n : ℕ) : isNumber (Numeral.decimal n) = true := by
  have hdigit : ∀ c ∈ Numeral.decimal n, c.isDigit = true := fun _ => Numeral.isDigit_of_mem_decimal
  have hwhole : isWhole (Numeral.decimal n) = true := by
    by_cases hn : n = 0
    · subst hn
      rfl
    · simp [isWhole, isDigits_decimal, Numeral.head?_decimal hn]
  have hmagnitude : isMagnitude (Numeral.decimal n) = true := by
    have htake : (Numeral.decimal n).takeWhile Char.isDigit = Numeral.decimal n :=
      List.takeWhile_eq_self_iff.mpr hdigit
    have hdrop : (Numeral.decimal n).dropWhile Char.isDigit = [] :=
      List.dropWhile_eq_nil_iff.mpr hdigit
    rw [isMagnitude, htake, hdrop, hwhole]
    rfl
  -- no sign stands in front of a digit
  rw [isNumber.eq_2 _ fun rest h => ?_]
  · exact hmagnitude
  · have hminus := hdigit '-' (by rw [h]; exact List.mem_cons_self)
    cases hminus

lemma hasSpelling_ofUnsigned (n : UInt64) : (Scalar.ofUnsigned n).token.HasSpelling := by
  refine ⟨isNumber_decimal _, fun c hc => ?_⟩
  rw [isNumberCharacter, Numeral.isDigit_of_mem_decimal hc]
  rfl

/-- Every number is read back from its digits. -/
lemma unsigned?_ofUnsigned (n : UInt64) : (Scalar.ofUnsigned n).unsigned? = some n := by
  rw [Scalar.ofUnsigned, Scalar.unsigned?, if_pos (isDigits_decimal _), Numeral.readUnsigned_decimal]
  rfl

/-- Every date is read back, whatever its year. -/
lemma date?_writeZulu (t : Instant) :
    (Scalar.text (Timestamp.writeZulu t)).date? = some (some t) := by
  rw [Scalar.date?, Timestamp.readLenient?_writeZulu]
  rfl

end Json

/-! ### Scripts and summaries -/

namespace Script

/-- What is written for a script is an object with exactly its members. -/
theorem read?_json (s : Script) : read? s.json = some (.object s.members) := by
  have htext : ∀ word, (Scalar.text word).token.HasSpelling := fun _ => nofun
  refine read?_render_objectTokens ?_
  simp only [members, List.forall_mem_append, List.forall_mem_cons]
  refine ⟨⟨htext _, htext _, htext _, hasSpelling_ofUnsigned _, trivial, nofun⟩, ?_⟩
  cases s.activatedAt with
  | none => exact nofun
  | some t => exact List.forall_mem_singleton.mpr (htext _)

/-- The members of a script are those of the script. -/
lemma ofMembers?_members (s : Script) : ofMembers? s.members = some s := by
  obtain ⟨owner, name, content, size, active, activatedAt⟩ := s
  cases activatedAt with
  | none =>
      simp [ofMembers?, required?, member?, members, ofScalars?, unsigned?_ofUnsigned, Scalar.text?,
        Scalar.bool?, Scalar.date?]
  | some t =>
      simp [ofMembers?, required?, member?, members, ofScalars?, unsigned?_ofUnsigned, Scalar.text?,
        Scalar.bool?, date?_writeZulu]

/-- **Scripts are read back** from their JSON. -/
theorem ofJson?_json (s : Script) : ofJson? s.json = some s := by
  rw [ofJson?, read?_json]
  exact ofMembers?_members s

/-- A script has a member for its date exactly if it has a date. -/
lemma exists_activated_at_iff (s : Script) :
    (∃ m ∈ s.members, m.1 = "activated_at") ↔ s.activatedAt.isSome = true := by
  cases h : s.activatedAt <;> simp [members, h]

/-- Without a value for the date there is no date. -/
lemma activatedAt_of_ofScalars? {owner name content size active : Scalar} {s : Script}
    (h : ofScalars? owner name content size active none = some s) : s.activatedAt = none := by
  obtain ⟨_, -, h⟩ := Option.bind_eq_some_iff.mp h
  obtain ⟨_, -, h⟩ := Option.bind_eq_some_iff.mp h
  obtain ⟨_, -, h⟩ := Option.bind_eq_some_iff.mp h
  obtain ⟨_, -, h⟩ := Option.bind_eq_some_iff.mp h
  obtain ⟨_, -, h⟩ := Option.bind_eq_some_iff.mp h
  obtain ⟨_, hdate, h⟩ := Option.bind_eq_some_iff.mp h
  cases hdate
  cases h
  rfl

/-- Where the member for the date is missing there is no date. -/
lemma activatedAt_of_forall_ne {ms : List Member} {s : Script} (h : ofMembers? ms = some s)
    (hms : ∀ m ∈ ms, m.1 ≠ "activated_at") : s.activatedAt = none := by
  have hmember : member? "activated_at" ms = some none := by
    have hfilter : ms.filter (·.1 = "activated_at") = [] :=
      List.filter_eq_nil_iff.mpr fun m hm => by simpa using hms m hm
    rw [member?, hfilter]
  -- the five members that must be there, and then the one that may be missing
  obtain ⟨_, -, h⟩ := Option.bind_eq_some_iff.mp h
  obtain ⟨_, -, h⟩ := Option.bind_eq_some_iff.mp h
  obtain ⟨_, -, h⟩ := Option.bind_eq_some_iff.mp h
  obtain ⟨_, -, h⟩ := Option.bind_eq_some_iff.mp h
  obtain ⟨_, -, h⟩ := Option.bind_eq_some_iff.mp h
  obtain ⟨activatedAt, hfound, h⟩ := Option.bind_eq_some_iff.mp h
  obtain rfl : none = activatedAt := Option.some.inj (hmember.symm.trans hfound)
  exact activatedAt_of_ofScalars? h

end Script

namespace Summary

/-- What is written for a summary is an object with exactly its members. -/
theorem read?_json (s : Summary) : read? s.json = some (.object s.members) := by
  refine read?_render_objectTokens ?_
  simp only [members, List.forall_mem_cons]
  exact ⟨nofun, trivial, nofun⟩

/-- **Summaries are read back** from their JSON. -/
theorem ofJson?_json (s : Summary) : ofJson? s.json = some s := by
  rw [ofJson?, read?_json]
  simp [required?, member?, members, ofScalars?, Scalar.text?, Scalar.bool?]

end Summary

/-! ### Limits -/

namespace Limit

/-- No limit is written as a text. -/
lemma read?_json_unlimited : read? unlimited.json = some (.scalar (.text "unlimited")) := by
  have htokens : tokens? ([Token.quoted (some "unlimited")].flatMap Token.spell) =
      some [.quoted (some "unlimited")] :=
    tokens?_flatMap_spell (by simp [Token.HasSpelling]) (List.isChain_singleton _)
  rw [read?, json, render, String.toList_ofList, htokens]
  rfl

/-- A limit is written as an object with one member. -/
lemma read?_json_bytes (count : UInt64) :
    read? (bytes count).json = some (.object [("size", .ofUnsigned count)]) :=
  read?_render_objectTokens (List.forall_mem_singleton.mpr (hasSpelling_ofUnsigned count))

/-- **Limits are read back** from their JSON. -/
theorem ofJson?_json (limit : Limit) : ofJson? limit.json = some limit := by
  cases limit with
  | unlimited =>
      rw [ofJson?, read?_json_unlimited]
      rfl
  | bytes count =>
      rw [ofJson?, read?_json_bytes]
      simp [unsigned?_ofUnsigned]

end Limit

/-! ### All of them -/

/-- **Values are read back from their JSON.** This holds for every script, whatever its texts, its
size, its mark and its date, and for every summary and limit. A script without a date has no member
for it, and an object without this member is read as a script without a date. So whatever text is
accepted, reading what is written for its value and writing it again changes nothing. -/
theorem written_values_read_back :
    (∀ s : Script, Script.ofJson? s.json = some s) ∧
    (∀ s : Summary, Summary.ofJson? s.json = some s) ∧
    (∀ limit : Limit, Limit.ofJson? limit.json = some limit) ∧
    (∀ s : Script, read? s.json = some (.object s.members) ∧
      ((∃ m ∈ s.members, m.1 = "activated_at") ↔ s.activatedAt.isSome = true)) ∧
    (∀ text ms s, read? text = some (.object ms) → (∀ m ∈ ms, m.1 ≠ "activated_at") →
      Script.ofJson? text = some s → s.activatedAt = none) ∧
    (∀ text s, Script.ofJson? text = some s →
      (Script.ofJson? s.json).map Script.json = some s.json) ∧
    (∀ text s, Summary.ofJson? text = some s →
      (Summary.ofJson? s.json).map Summary.json = some s.json) ∧
    ∀ text limit, Limit.ofJson? text = some limit →
      (Limit.ofJson? limit.json).map Limit.json = some limit.json := by
  refine ⟨Script.ofJson?_json, Summary.ofJson?_json, Limit.ofJson?_json,
    fun s => ⟨s.read?_json, s.exists_activated_at_iff⟩, fun text ms s hread hms h => ?_,
    fun _ s _ => ?_, fun _ s _ => ?_, fun _ limit _ => ?_⟩
  · rw [Script.ofJson?, hread] at h
    exact Script.activatedAt_of_forall_ne h hms
  · rw [Script.ofJson?_json, Option.map_some]
  · rw [Summary.ofJson?_json, Option.map_some]
  · rw [Limit.ofJson?_json, Option.map_some]

end FilterStore
