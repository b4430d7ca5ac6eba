import FilterStore.Text.ByteOrder

/-!
Sequences of bytes that are nearly texts.

* **Pieces.** `pieces` takes a sequence apart at a byte, and `pieces_intercalate` puts it together
  again.
* **Percent signs.** `percentDecode` replaces a percent sign and two hexadecimal digits by the byte
  of this value. The byte zero ends the sequence.
* **Readable form.** `readable` is a text to be shown for bytes: that of which they are the UTF-8
  form (`readable_bytes`), or one with replacement characters.
-/

namespace FilterStore.Text

/-- The byte of an ASCII character. -/
def ascii (c : Char) : UInt8 :=
  c.toUInt8

/-! ### Pieces -/

/-- The pieces of a sequence between the occurrences of a byte. -/
def pieces (separator : UInt8) : List UInt8 → List (List UInt8)
  | [] => [[]]
  | b :: bs =>
    if b = separator then [] :: pieces separator bs
    else
      match pieces separator bs with
      | [] => [[b]]
      | piece :: rest => (b :: piece) :: rest

/-- There is at least one piece. -/
theorem pieces_ne_nil (separator : UInt8) (bs : List UInt8) : pieces separator bs ≠ [] := by
  cases bs with
  | nil => simp [pieces]
  | cons b bs =>
    rw [pieces]
    split
    · simp
    · split <;> simp

/-- The pieces with the separator between them are the sequence. -/
theorem pieces_intercalate (separator : UInt8) (bs : List UInt8) :
    [separator].intercalate (pieces separator bs) = bs := by
  induction bs with
  | nil => rfl
  | cons b bs ih =>
    rw [pieces]
    split
    · next hb =>
      subst hb
      match hp : pieces b bs, ih with
      | [], _ => exact absurd hp (pieces_ne_nil b bs)
      | piece :: rest, ih => simpa [List.intercalate] using ih
    · match hp : pieces separator bs, ih with
      | [], _ => exact absurd hp (pieces_ne_nil separator bs)
      | [piece], ih => simpa [List.intercalate] using ih
      | piece :: second :: rest, ih => simpa [List.intercalate] using ih

/-! ### Percent signs -/

/-- The value of a hexadecimal digit. -/
def hexValue? (b : UInt8) : Option UInt8 :=
  if ascii '0' ≤ b ∧ b ≤ ascii '9' then some (b - ascii '0')
  else if ascii 'a' ≤ b ∧ b ≤ ascii 'f' then some (b - ascii 'a' + 10)
  else if ascii 'A' ≤ b ∧ b ≤ ascii 'F' then some (b - ascii 'A' + 10)
  else none

/-- The byte that a percent sign and two digits stand for, if they stand for one. -/
def escaped? (sign high low : UInt8) : Option UInt8 :=
  if sign = ascii '%' then do return 16 * (← hexValue? high) + (← hexValue? low) else none

/-- A sequence with percent signs and digits replaced. -/
def percentDecode : List UInt8 → List UInt8
  | b :: high :: low :: rest =>
    match escaped? b high low with
    | some v => if v = 0 then [] else v :: percentDecode rest
    | none => b :: percentDecode (high :: low :: rest)
  | bs => bs

/-- Without percent signs a sequence stays. -/
theorem percentDecode_eq_self {bs : List UInt8} (h : ∀ b ∈ bs, b ≠ ascii '%') :
    percentDecode bs = bs := by
  fun_induction percentDecode bs with
  | case1 sign high low rest found =>
    simp [escaped?, h sign List.mem_cons_self] at found
  | case2 sign high low rest v found _ _ =>
    simp [escaped?, h sign List.mem_cons_self] at found
  | case3 sign high low rest _ ih => rw [ih fun b hb => h b (List.mem_cons_of_mem sign hb)]
  | case4 => rfl

/-! ### Readable form -/

/-- How a character of several bytes goes on behind its first byte. -/
structure Continuation where
  /-- The least next byte. -/
  least : UInt8
  /-- The greatest next byte. -/
  greatest : UInt8
  /-- How many bytes there are behind the first one. -/
  count : Nat
  deriving DecidableEq, Repr

/-- How a character goes on that begins with a byte, if one of several bytes does. The bounds of the
next byte rule out needlessly long forms, surrogates and numbers that are too large. -/
def continuation? (b : UInt8) : Option Continuation :=
  if 0xc2 ≤ b ∧ b ≤ 0xdf then some ⟨0x80, 0xbf, 1⟩
  else if b = 0xe0 then some ⟨0xa0, 0xbf, 2⟩
  else if b = 0xed then some ⟨0x80, 0x9f, 2⟩
  else if 0xe1 ≤ b ∧ b ≤ 0xef then some ⟨0x80, 0xbf, 2⟩
  else if b = 0xf0 then some ⟨0x90, 0xbf, 3⟩
  else if b = 0xf4 then some ⟨0x80, 0x8f, 3⟩
  else if 0xf1 ≤ b ∧ b ≤ 0xf3 then some ⟨0x80, 0xbf, 3⟩
  else none

/-- How many bytes go on with a character. All of them are needed for it to be whole. -/
def Continuation.reach (c : Continuation) : List UInt8 → Nat
  | [] => 0
  | b :: bs =>
    if c.least ≤ b ∧ b ≤ c.greatest then
      1 + ((bs.take (c.count - 1)).takeWhile fun b => 0x80 ≤ b && b ≤ 0xbf).length
    else 0

/-- The character of a first byte and those behind it. -/
def characterOf (b : UInt8) (behind : List UInt8) : Char :=
  Char.ofNat (behind.foldl (fun n b => 64 * n + b.toNat % 64) (b.toNat % (64 >>> behind.length)))

/-- The characters of bytes. The replacement character stands for a byte that begins no character,
and for the beginning of a character that is not whole. -/
def readableCharacters : List UInt8 → List Char
  | [] => []
  | b :: bs =>
    match continuation? b with
    | none => (if b < 0x80 then Char.ofUInt8 b else '\ufffd') :: readableCharacters bs
    | some c =>
      let n := c.reach bs
      (if n = c.count then characterOf b (bs.take n) else '\ufffd') ::
        readableCharacters (bs.drop n)
termination_by bs => bs.length
decreasing_by all_goals simp only [List.length_cons, List.length_drop]; omega

/-- The text of bytes, as far as they are one. -/
def readable (bs : List UInt8) : String :=
  match String.fromUTF8? ⟨bs.toArray⟩ with
  | some s => s
  | none => String.ofList (readableCharacters bs)

/-- The bytes of a text are shown as the text. -/
theorem readable_bytes (s : String) : readable (bytes s) = s := by
  have whole : (⟨(bytes s).toArray⟩ : ByteArray) = s.toUTF8 := by simp [bytes]
  have found : String.fromUTF8? s.toUTF8 = some s := dif_pos s.isValidUTF8
  rw [readable, whole, found]

end FilterStore.Text
