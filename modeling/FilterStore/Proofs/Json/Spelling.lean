import Mathlib.Tactic
import FilterStore.Json.Flat
import FilterStore.Proofs.Text.Numerals

/-!
What is written as JSON is read back: texts, tokens and objects.

* **Quoted texts.** An escaped character is read as one `Piece`, which is a number of sixteen bits
  for a control character without a short form (`pieces?_escape`). The pieces of a text denote it
  again (`characters?_map_piece`), so a quoted text is read back, whatever follows
  (`pieces?_quote`).
* **Tokens.** A token with a spelling of its own is read back if no part of a number follows a
  number (`tokens?_spell_append`). Tokens are read back from their joined spellings if no number
  stands directly behind another (`tokens?_flatMap_spell`).
* **Objects.** The members of an object are read back in their order (`membersFrom?_memberTokens`),
  and so is the object that is written for them (`read?_render_objectTokens`).
-/

namespace FilterStore.Json

/-! ### Quoted texts -/

/-- The piece that an escaped character is read as. -/
def Piece.of (c : Char) : Piece :=
  if c.toNat < 0x20 ∧ c ∉ ['\x08', '\t', '\n', '\x0c', '\r'] then .unit c.toNat else .char c

/-- The two digits of base 16 that a control character is written with have its number. -/
lemma hexUnit?_hexDigit : ∀ n < 0x20,
    hexUnit? '0' '0' (hexDigit (n / 16)) (hexDigit (n % 16)) = some n := by
  decide

/-- A character with a short escape is read behind its backslash. -/
lemma pieces?_shortEscape {c e : Char} (he : shortEscape? e = some c) (cs : List Char) :
    pieces? ('\\' :: e :: cs) = (fun p => (.char c :: p.1, p.2)) <$> pieces? cs := by
  have hu : e ≠ 'u' := by
    rintro rfl
    cases he
  rw [pieces?.eq_4 _ _ fun _ _ _ _ _ h => absurd h hu, he]
  cases pieces? cs <;> rfl

/-- An escaped character is read as its piece. -/
theorem pieces?_escape (c : Char) (cs : List Char) :
    pieces? (escape c ++ cs) = (fun p => (Piece.of c :: p.1, p.2)) <$> pieces? cs := by
  rw [escape]
  split_ifs with hquote hslash hb ht hn hf hr hcontrol
  · subst hquote
    exact pieces?_shortEscape rfl cs
  · subst hslash
    exact pieces?_shortEscape rfl cs
  · subst hb
    exact pieces?_shortEscape rfl cs
  · subst ht
    exact pieces?_shortEscape rfl cs
  · subst hn
    exact pieces?_shortEscape rfl cs
  · subst hf
    exact pieces?_shortEscape rfl cs
  · subst hr
    exact pieces?_shortEscape rfl cs
  · have hpiece : Piece.of c = .unit c.toNat := if_pos ⟨hcontrol, by simp [hb, ht, hn, hf, hr]⟩
    rw [hpiece]
    simp only [List.cons_append, List.nil_append, pieces?.eq_3, hexUnit?_hexDigit _ hcontrol]
    cases pieces? cs <;> rfl
  · have hpiece : Piece.of c = .char c := if_neg fun h => hcontrol h.1
    rw [hpiece, List.singleton_append, pieces?.eq_5 c cs hquote (fun _ _ _ _ _ h => absurd h hslash)
      (fun _ _ h => absurd h hslash), if_neg (by tauto)]
    cases pieces? cs <;> rfl

/-- The pieces of a text denote the text. -/
theorem characters?_map_piece (cs : List Char) : characters? (cs.map Piece.of) = some cs := by
  induction cs with
  | nil => rfl
  | cons c cs ih =>
      rw [List.map_cons]
      by_cases hunit : c.toNat < 0x20 ∧ c ∉ ['\x08', '\t', '\n', '\x0c', '\r']
      · have hpiece : Piece.of c = .unit c.toNat := if_pos hunit
        have hlow : ¬ (0xD800 ≤ c.toNat ∧ c.toNat < 0xE000) := by omega
        have hhigh : ¬ (0xD800 ≤ c.toNat ∧ c.toNat < 0xDC00) := by omega
        have hhalf : ¬ (0xDC00 ≤ c.toNat ∧ c.toNat < 0xE000) := by omega
        -- a number below the surrogates is a character of its own, whatever follows
        rw [hpiece]
        rcases hrest : cs.map Piece.of with _ | ⟨⟨d⟩ | ⟨n⟩, ps⟩
        · rw [hrest] at ih
          simp [characters?, hlow, ← Option.some.inj ih]
        · rw [hrest] at ih
          rw [characters?.eq_4 _ _ (by simp), if_neg hlow, ih, Char.ofNat_toNat]
          rfl
        · rw [hrest] at ih
          rw [characters?.eq_3, if_neg hhigh, if_neg hhalf, ih, Char.ofNat_toNat]
          rfl
      · have hpiece : Piece.of c = .char c := if_neg hunit
        rw [hpiece, characters?.eq_2, ih]
        rfl

/-- A quoted text is read back up to its closing quote. -/
theorem pieces?_quote (cs rest : List Char) :
    pieces? (cs.flatMap escape ++ '"' :: rest) = some (cs.map Piece.of, rest) := by
  induction cs with
  | nil => rfl
  | cons c cs ih =>
      rw [List.flatMap_cons, List.append_assoc, pieces?_escape, ih]
      rfl

/-! ### Tokens -/

namespace Token

/-- The token is a number. -/
def IsNumeral : Token → Prop
  | .number _ => True
  | _ => False

/-- The token has a spelling that stands for it and for nothing else. -/
def HasSpelling : Token → Prop
  | .number digits => isNumber digits = true ∧ ∀ c ∈ digits, isNumberCharacter c = true
  | .quoted text => text ≠ none
  | _ => True

end Token

variable {ts : List Token} {t u : Token} {rest : List Char}

/-- A quoted text is read back as a token. -/
lemma tokens?_quote (s : String) (rest : List Char) :
    tokens? (quote s ++ rest) = (.quoted (some s) :: ·) <$> tokens? rest := by
  have htext : quote s ++ rest = '"' :: (s.toList.flatMap escape ++ '"' :: rest) := by
    simp [quote]
  rw [htext, tokens?.eq_11]
  split
  next hnone =>
    rw [pieces?_quote] at hnone
    cases hnone
  next ps tail hsome =>
    rw [pieces?_quote] at hsome
    cases hsome
    rw [characters?_map_piece]
    change (Token.quoted (some (String.ofList s.toList)) :: ·) <$> tokens? rest = _
    rw [String.ofList_toList]

/-- A number is read back as a token if no part of a number follows. -/
lemma tokens?_number {digits : List Char} (hn : isNumber digits = true)
    (hc : ∀ c ∈ digits, isNumberCharacter c = true)
    (hr : ∀ c ∈ rest.head?, isNumberCharacter c = false) :
    tokens? (digits ++ rest) = (.number digits :: ·) <$> tokens? rest := by
  cases digits with
  | nil => cases hn
  | cons c ds =>
      obtain ⟨hhead, hds⟩ := List.forall_mem_cons.mp hc
      have hne : ∀ d, isNumberCharacter d = false → c ≠ d := by
        rintro d hd rfl
        rw [hhead] at hd
        cases hd
      have hgap : isGap c = false := by
        rw [isGap, decide_eq_false_iff_not]
        simp only [List.mem_cons, List.not_mem_nil, or_false, not_or]
        exact ⟨hne _ rfl, hne _ rfl, hne _ rfl, hne _ rfl⟩
      have htake : (ds ++ rest).takeWhile isNumberCharacter = ds := Text.takeWhile_run hds hr
      have hdrop : (ds ++ rest).dropWhile isNumberCharacter = rest := Text.dropWhile_run hds hr
      rw [List.cons_append, tokens?.eq_12 c (ds ++ rest) (hne _ rfl) (hne _ rfl) (hne _ rfl)
        (hne _ rfl) (hne _ rfl) (hne _ rfl) (fun _ h => absurd h (hne _ rfl))
        (fun _ h => absurd h (hne _ rfl)) (fun _ h => absurd h (hne _ rfl)) (hne _ rfl)]
      simp only [hgap, htake, hdrop, hn, if_true]
      rfl

/-- **A token is read back** from its spelling if no part of a number follows a number. -/
theorem tokens?_spell_append (ht : t.HasSpelling)
    (hr : t.IsNumeral → ∀ c ∈ rest.head?, isNumberCharacter c = false) :
    tokens? (t.spell ++ rest) = (t :: ·) <$> tokens? rest := by
  cases t with
  | objectStart => exact tokens?.eq_2 rest
  | objectEnd => exact tokens?.eq_3 rest
  | arrayStart => exact tokens?.eq_4 rest
  | arrayEnd => exact tokens?.eq_5 rest
  | colon => exact tokens?.eq_6 rest
  | comma => exact tokens?.eq_7 rest
  | null => exact tokens?.eq_8 rest
  | bool value =>
      cases value with
      | true => exact tokens?.eq_9 rest
      | false => exact tokens?.eq_10 rest
  | number digits => exact tokens?_number ht.1 ht.2 (hr trivial)
  | quoted text =>
      cases text with
      | none => exact absurd rfl ht
      | some s => exact tokens?_quote s rest

/-- Only a number begins with a part of a number. -/
lemma head?_spell (hn : ¬ t.IsNumeral) :
    ∀ c ∈ (t.spell ++ rest).head?, isNumberCharacter c = false := by
  intro c hc
  cases t with
  | number digits => exact absurd trivial hn
  | bool value =>
      cases value with
      | true => cases hc; rfl
      | false => cases hc; rfl
  | _ => cases hc; rfl

/-- No number stands directly behind another. -/
def Apart (ts : List Token) : Prop :=
  ts.IsChain fun t u => ¬ (t.IsNumeral ∧ u.IsNumeral)

lemma apart_cons_of_left (ht : ¬ t.IsNumeral) : Apart (t :: ts) ↔ Apart ts := by
  cases ts with
  | nil => simp [Apart]
  | cons u ts => simp [Apart, List.isChain_cons_cons, ht]

lemma apart_cons_of_right (hu : ¬ u.IsNumeral) : Apart (t :: u :: ts) ↔ Apart (u :: ts) := by
  simp [Apart, List.isChain_cons_cons, hu]

/-- **Tokens are read back** from their joined spellings. -/
theorem tokens?_flatMap_spell (hts : ∀ t ∈ ts, t.HasSpelling) (happ : Apart ts) :
    tokens? (ts.flatMap Token.spell) = some ts := by
  induction ts with
  | nil => exact tokens?.eq_1
  | cons t ts ih =>
      obtain ⟨ht, hrest⟩ := List.forall_mem_cons.mp hts
      have happ' : Apart ts := List.IsChain.tail happ
      have hr : t.IsNumeral → ∀ c ∈ (ts.flatMap Token.spell).head?, isNumberCharacter c = false := by
        intro hnumeral
        cases ts with
        | nil => simp
        | cons u ts =>
            rw [List.flatMap_cons]
            exact head?_spell fun hu => (List.isChain_cons_cons.mp happ).1 ⟨hnumeral, hu⟩
      rw [List.flatMap_cons, tokens?_spell_append ht hr, ih hrest happ']
      rfl

/-! ### Objects -/

/-- Values are kept apart by the names and marks between them. -/
lemma apart_memberTokens (ms : List Member) : Apart (memberTokens ms ++ [.objectEnd]) := by
  have hend : Apart [.objectEnd] := List.isChain_singleton _
  induction ms using memberTokens.induct with
  | case1 => exact hend
  | case2 name value =>
      rw [memberTokens]
      exact (apart_cons_of_left id).mpr ((apart_cons_of_left id).mpr ((apart_cons_of_right id).mpr hend))
  | case3 name value rest hrest ih =>
      rw [memberTokens.eq_3 _ _ _ hrest]
      exact (apart_cons_of_left id).mpr ((apart_cons_of_left id).mpr
        ((apart_cons_of_right id).mpr ((apart_cons_of_left id).mpr ih)))

/-- The tokens of members have spellings if their values do. -/
lemma hasSpelling_of_mem_memberTokens {ms : List Member} (hms : ∀ m ∈ ms, m.2.token.HasSpelling) :
    ∀ t ∈ memberTokens ms, t.HasSpelling := by
  have hname : ∀ name : String, (Token.quoted (some name)).HasSpelling := fun _ => nofun
  induction ms using memberTokens.induct with
  | case1 => exact fun t ht => absurd ht List.not_mem_nil
  | case2 name value =>
      have hvalue := hms _ (List.mem_singleton_self _)
      simp only [memberTokens, List.forall_mem_cons]
      exact ⟨hname name, trivial, hvalue, by simp⟩
  | case3 name value rest hrest ih =>
      obtain ⟨hvalue, hms'⟩ := List.forall_mem_cons.mp hms
      rw [memberTokens.eq_3 _ _ _ hrest]
      simp only [List.forall_mem_cons]
      exact ⟨hname name, trivial, hvalue, trivial, ih hms'⟩

/-- The token of a value is read as the value. -/
lemma value?_token (v : Scalar) (ts : List Token) : value? (v.token :: ts) = some (v, ts) := by
  cases v <;> rfl

/-- The members of an object are read back in their order. -/
theorem membersFrom?_memberTokens {ms : List Member} (hne : ms ≠ []) :
    membersFrom? (memberTokens ms ++ [.objectEnd]) = some ms := by
  induction ms using memberTokens.induct with
  | case1 => exact absurd rfl hne
  | case2 name value =>
      simp only [memberTokens, List.cons_append, List.nil_append, membersFrom?.eq_1]
      split
      next v heq =>
        rw [value?_token] at heq
        cases heq
        rfl
      next v more heq =>
        rw [value?_token] at heq
        cases heq
      next hother _ => exact absurd (value?_token value _) (hother value)
  | case3 name value rest hrest ih =>
      rw [memberTokens.eq_3 _ _ _ hrest]
      simp only [List.cons_append, membersFrom?.eq_1]
      split
      next v heq =>
        rw [value?_token] at heq
        cases heq
      next v more heq =>
        rw [value?_token] at heq
        cases heq
        rw [ih hrest]
        rfl
      next _ hother => exact absurd (value?_token value _) (hother value _)

/-- **Objects are read back**: reading what is written for members gives the members in their
order. -/
theorem read?_render_objectTokens {ms : List Member} (hms : ∀ m ∈ ms, m.2.token.HasSpelling) :
    read? (render (objectTokens ms)) = some (.object ms) := by
  have hspelling : ∀ t ∈ objectTokens ms, t.HasSpelling := by
    simp only [objectTokens, List.cons_append, List.forall_mem_cons, List.forall_mem_append]
    exact ⟨trivial, hasSpelling_of_mem_memberTokens hms, trivial, nofun⟩
  have happ : Apart (objectTokens ms) := (apart_cons_of_left id).mpr (apart_memberTokens ms)
  have hshape : shapeOf? (objectTokens ms) = some (.object ms) := by
    by_cases hne : ms = []
    · subst hne
      rfl
    · have hmore : memberTokens ms ++ [Token.objectEnd] ≠ [.objectEnd] := fun h => by
        have hread := membersFrom?_memberTokens hne
        rw [h, membersFrom?.eq_def] at hread
        cases hread
      rw [objectTokens, List.cons_append, shapeOf?.eq_2 _ hmore, membersFrom?_memberTokens hne]
      rfl
  rw [read?, render, String.toList_ofList, tokens?_flatMap_spell hspelling happ]
  exact hshape

end FilterStore.Json
