/-!
The tokens of JSON texts.

* **Spelling.** `Token.spell` writes a token. In a quoted text the quote, the backslash and the
  control characters are escaped, with short forms where JSON has them; all else stands for itself.
* **Reading.** `tokens?` splits a text into tokens and fails if some part of it is none. Blanks
  between tokens are the four of JSON. A quoted text whose escapes leave half of a surrogate pair
  alone is well-formed but denotes no text: `Token.quoted none`.
-/

namespace FilterStore.Json

/-- A token of a JSON text. -/
inductive Token where
  /-- The beginning of an object. -/
  | objectStart
  /-- The end of an object. -/
  | objectEnd
  /-- The beginning of an array. -/
  | arrayStart
  /-- The end of an array. -/
  | arrayEnd
  /-- What separates a name from its value. -/
  | colon
  /-- What separates members or elements. -/
  | comma
  /-- The value `null`. -/
  | null
  /-- A truth value. -/
  | bool (value : Bool)
  /-- A number, as written. -/
  | number (digits : List Char)
  /-- A quoted text, or `none` if its escapes denote no text. -/
  | quoted (text : Option String)
  deriving DecidableEq, Repr

/-! ### Spelling -/

/-- The digits of base 16, in lower case. -/
def hexDigit (n : Nat) : Char :=
  Nat.digitChar n

/-- A character as it stands in a quoted text. -/
def escape (c : Char) : List Char :=
  if c = '"' then ['\\', '"']
  else if c = '\\' then ['\\', '\\']
  else if c = '\x08' then ['\\', 'b']
  else if c = '\t' then ['\\', 't']
  else if c = '\n' then ['\\', 'n']
  else if c = '\x0c' then ['\\', 'f']
  else if c = '\r' then ['\\', 'r']
  else if c.toNat < 0x20 then
    ['\\', 'u', '0', '0', hexDigit (c.toNat / 16), hexDigit (c.toNat % 16)]
  else [c]

/-- A text in quotes. -/
def quote (s : String) : List Char :=
  '"' :: s.toList.flatMap escape ++ ['"']

/-- A token as written. A quoted text that denotes nothing has no spelling of its own. -/
def Token.spell : Token → List Char
  | .objectStart => ['{']
  | .objectEnd => ['}']
  | .arrayStart => ['[']
  | .arrayEnd => [']']
  | .colon => [':']
  | .comma => [',']
  | .null => "null".toList
  | .bool true => "true".toList
  | .bool false => "false".toList
  | .number digits => digits
  | .quoted text => quote (text.getD "")

/-! ### Quoted texts -/

/-- A part of a quoted text: a character, or sixteen bits given by number. -/
inductive Piece where
  /-- A character that stands for itself or has a short escape. -/
  | char (c : Char)
  /-- Sixteen bits, written with four digits of base 16. -/
  | unit (n : Nat)
  deriving DecidableEq, Repr

/-- The value of a digit of base 16, in either case. -/
def hexValue? (c : Char) : Option Nat :=
  if c.isDigit then some (c.toNat - '0'.toNat)
  else if 'a'.toNat ≤ c.toNat ∧ c.toNat ≤ 'f'.toNat then some (c.toNat - 'a'.toNat + 10)
  else if 'A'.toNat ≤ c.toNat ∧ c.toNat ≤ 'F'.toNat then some (c.toNat - 'A'.toNat + 10)
  else none

/-- The value of four digits of base 16. -/
def hexUnit? (a b c d : Char) : Option Nat := do
  return 4096 * (← hexValue? a) + 256 * (← hexValue? b) + 16 * (← hexValue? c) + (← hexValue? d)

/-- The character that a backslash and a letter stand for. -/
def shortEscape? (c : Char) : Option Char :=
  match c with
  | '"' => some '"'
  | '\\' => some '\\'
  | '/' => some '/'
  | 'b' => some '\x08'
  | 'f' => some '\x0c'
  | 'n' => some '\n'
  | 'r' => some '\r'
  | 't' => some '\t'
  | _ => none

/-- Takes the pieces of a quoted text up to its closing quote. Control characters must be
escaped. -/
def pieces? : List Char → Option (List Piece × List Char)
  | [] => none
  | '"' :: rest => some ([], rest)
  | '\\' :: 'u' :: a :: b :: c :: d :: rest => do
    let n ← hexUnit? a b c d
    let (ps, rest) ← pieces? rest
    return (.unit n :: ps, rest)
  | '\\' :: c :: rest => do
    let e ← shortEscape? c
    let (ps, rest) ← pieces? rest
    return (.char e :: ps, rest)
  | c :: rest =>
    if c.toNat < 0x20 ∨ c = '\\' then none
    else do
      let (ps, rest) ← pieces? rest
      return (.char c :: ps, rest)

/-- The characters that pieces denote: two halves of a surrogate pair are one character, and half a
pair alone denotes none. -/
def characters? : List Piece → Option (List Char)
  | [] => some []
  | .char c :: rest => (c :: ·) <$> characters? rest
  | .unit high :: .unit low :: rest =>
    if 0xD800 ≤ high ∧ high < 0xDC00 then
      if 0xDC00 ≤ low ∧ low < 0xE000 then
        (Char.ofNat (0x10000 + (high - 0xD800) * 0x400 + (low - 0xDC00)) :: ·) <$> characters? rest
      else none
    else if 0xDC00 ≤ high ∧ high < 0xE000 then none
    else (Char.ofNat high :: ·) <$> characters? (.unit low :: rest)
  | .unit n :: rest =>
    if 0xD800 ≤ n ∧ n < 0xE000 then none else (Char.ofNat n :: ·) <$> characters? rest

/-- What is left behind a quoted text is shorter. -/
theorem length_of_pieces? {cs rest : List Char} {ps : List Piece}
    (h : pieces? cs = some (ps, rest)) : rest.length < cs.length := by
  fun_induction pieces? cs generalizing ps rest with
  | case1 => cases h
  | case2 => cases h; simp
  | case3 a b c d tail ih =>
    cases hn : hexUnit? a b c d with
    | none => simp [hn] at h
    | some n =>
      cases hp : pieces? tail with
      | none => simp [hn, hp] at h
      | some p =>
        simp only [hn, hp, Option.bind_eq_bind, Option.bind_some, Option.pure_def,
          Option.some.injEq, Prod.mk.injEq] at h
        have := ih hp
        simp only [List.length_cons]
        rw [← h.2]
        omega
  | case4 c tail _ ih =>
    cases he : shortEscape? c with
    | none => simp [he] at h
    | some e =>
      cases hp : pieces? tail with
      | none => simp [he, hp] at h
      | some p =>
        simp only [he, hp, Option.bind_eq_bind, Option.bind_some, Option.pure_def,
          Option.some.injEq, Prod.mk.injEq] at h
        have := ih hp
        simp only [List.length_cons]
        rw [← h.2]
        omega
  | case5 => cases h
  | case6 c tail _ _ _ _ ih =>
    cases hp : pieces? tail with
    | none => simp [hp] at h
    | some p =>
      simp only [hp, Option.bind_eq_bind, Option.bind_some, Option.pure_def, Option.some.injEq,
        Prod.mk.injEq] at h
      have := ih hp
      simp only [List.length_cons]
      rw [← h.2]
      omega

/-! ### Numbers -/

/-- Whether a character may occur in a number. -/
def isNumberCharacter (c : Char) : Bool :=
  c.isDigit || c ∈ ['+', '-', '.', 'e', 'E']

/-- Whether a text is digits, at least one of them. -/
def isDigits (cs : List Char) : Bool :=
  !cs.isEmpty && cs.all Char.isDigit

/-- Whether a text is an integer without sign: `0`, or digits of which the first is not `0`. -/
def isWhole (cs : List Char) : Bool :=
  isDigits cs && (cs == ['0'] || cs.head? != some '0')

/-- Whether a text is an exponent, or nothing. -/
def isExponent : List Char → Bool
  | [] => true
  | e :: sign :: rest =>
    (e == 'e' || e == 'E') &&
      if sign == '+' || sign == '-' then isDigits rest else isDigits (sign :: rest)
  | _ => false

/-- Whether a text is a decimal part with an optional exponent, or nothing. -/
def isFraction : List Char → Bool
  | '.' :: rest =>
    isDigits (rest.takeWhile Char.isDigit) && isExponent (rest.dropWhile Char.isDigit)
  | cs => isExponent cs

/-- Whether a text is a number without sign. -/
def isMagnitude (cs : List Char) : Bool :=
  isWhole (cs.takeWhile Char.isDigit) && isFraction (cs.dropWhile Char.isDigit)

/-- Whether a text is a number. -/
def isNumber : List Char → Bool
  | '-' :: rest => isMagnitude rest
  | cs => isMagnitude cs

/-! ### Reading -/

/-- The blanks of JSON. -/
def isGap (c : Char) : Bool :=
  c ∈ [' ', '\t', '\n', '\r']

/-- Splits a text into its tokens. -/
def tokens? (cs : List Char) : Option (List Token) :=
  match cs with
  | [] => some []
  | '{' :: rest => (.objectStart :: ·) <$> tokens? rest
  | '}' :: rest => (.objectEnd :: ·) <$> tokens? rest
  | '[' :: rest => (.arrayStart :: ·) <$> tokens? rest
  | ']' :: rest => (.arrayEnd :: ·) <$> tokens? rest
  | ':' :: rest => (.colon :: ·) <$> tokens? rest
  | ',' :: rest => (.comma :: ·) <$> tokens? rest
  | 'n' :: 'u' :: 'l' :: 'l' :: rest => (.null :: ·) <$> tokens? rest
  | 't' :: 'r' :: 'u' :: 'e' :: rest => (.bool true :: ·) <$> tokens? rest
  | 'f' :: 'a' :: 'l' :: 's' :: 'e' :: rest => (.bool false :: ·) <$> tokens? rest
  | '"' :: rest =>
    match _h : pieces? rest with
    | none => none
    | some (ps, tail) => (.quoted (String.ofList <$> characters? ps) :: ·) <$> tokens? tail
  | c :: rest =>
    if isGap c then tokens? rest
    else
      let digits := c :: rest.takeWhile isNumberCharacter
      if isNumber digits then (.number digits :: ·) <$> tokens? (rest.dropWhile isNumberCharacter)
      else none
termination_by cs.length
decreasing_by
  all_goals simp only [List.length_cons]
  all_goals first
    | omega
    | exact Nat.lt_succ_of_lt (length_of_pieces? ‹_›)
    | exact Nat.lt_succ_of_le (List.dropWhile_suffix _).length_le

end FilterStore.Json
