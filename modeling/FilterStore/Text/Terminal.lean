/-!
Texts for terminals.

* **Styles.** A text may ask a terminal for a style: `Style.apply` puts a control sequence in front
  of it that begins the style, and one behind it that ends all styles.
* **Control sequences.** A sequence begins with the escape character. What follows decides how far
  it reaches, and `Sequence` is how far reading has come. Two control characters break off every
  sequence, and the escape character begins a new one.
* **Plain texts.** `plain` leaves the sequences out, and all control characters but line ends and
  other blanks. Such a blank in a sequence is still shown, and suspends the sequence: the characters
  behind it are shown too, up to the next control character, which goes on with the sequence. A
  character outside of ASCII that is shown ends it. A text without control characters is plain
  (`plain_eq_self`).
-/

namespace FilterStore.Terminal

/-! ### Styles -/

/-- How a part of a message looks. -/
inductive Style where
  /-- The word by which an error is announced. -/
  | alarm
  /-- What cannot be accepted. -/
  | refused
  /-- What is to be typed as it stands. -/
  | typed
  deriving DecidableEq, Repr

/-- The control sequences that begin a style: bold and red, yellow, and bold. -/
def Style.start : Style → String
  | .alarm => "\x1b[1m\x1b[31m"
  | .refused => "\x1b[33m"
  | .typed => "\x1b[1m"

/-- The control sequence that ends all styles. -/
def normal : String :=
  "\x1b[0m"

/-- A text in a style. -/
def Style.apply (style : Style) (text : String) : String :=
  style.start ++ text ++ normal

/-! ### Characters -/

/-- Whether a character is a blank that only control characters are. -/
def isControlBlank (c : Char) : Bool :=
  c ∈ ['\t', '\n', '\x0c', '\r']

/-- Whether a character outside of control sequences is shown. -/
def isShown (c : Char) : Bool :=
  isControlBlank c || (0x20 ≤ c.toNat && c.toNat ≠ 0x7f)

/-- Whether a character lies between two codes, both included. -/
def isBetween (low high : Nat) (c : Char) : Bool :=
  low ≤ c.toNat && c.toNat ≤ high

/-- Whether one of the bytes of a character in UTF-8 is the terminator of strings. -/
def hasTerminator (c : Char) : Bool :=
  (String.utf8EncodeChar c).contains 0x9c

/-! ### Control sequences -/

/-- How far a control sequence has been read. -/
inductive Sequence where
  /-- No sequence has begun. -/
  | none
  /-- The escape character. -/
  | escape
  /-- The escape character and characters in front of a final one. -/
  | intermediate
  /-- The beginning of a sequence with parameters. -/
  | control
  /-- The beginning of a string for the device. -/
  | device
  /-- The parameters of a string for the device. -/
  | deviceParameters
  /-- Characters between the parameters of a string for the device and the string. -/
  | deviceIntermediate
  /-- A string up to its terminator. -/
  | string
  /-- A command for the system of the terminal, up to a bell. -/
  | command
  deriving DecidableEq, Repr

namespace Sequence

/-- Whether a blank in the sequence is shown. -/
def yields : Sequence → Bool
  | .none | .escape | .intermediate | .control => true
  | _ => false

/-- What the character behind the escape character begins. -/
def begin (c : Char) : Sequence :=
  if isBetween 0x20 0x2f c then .intermediate
  else if c = '[' then .control
  else if c = ']' then .command
  else if c = 'P' then .device
  else if c = 'X' ∨ c = '^' ∨ c = '_' then .string
  else if isBetween 0x30 0x7e c then .none
  else .escape

/-- The sequence with one more character. -/
def next (s : Sequence) (c : Char) : Sequence :=
  if c = '\x1b' then .escape
  else if c = '\x18' ∨ c = '\x1a' then .none
  else
    match s with
    | .none => .none
    | .escape => begin c
    | .intermediate => if isBetween 0x30 0x7e c then .none else .intermediate
    | .control => if isBetween 0x40 0x7e c then .none else .control
    | .device =>
      if isBetween 0x20 0x2f c then .deviceIntermediate
      else if isBetween 0x30 0x3f c then .deviceParameters
      else if isBetween 0x40 0x7e c then .string
      else .device
    | .deviceParameters =>
      if isBetween 0x20 0x2f c then .deviceIntermediate
      else if isBetween 0x3c 0x7e c then .string
      else .deviceParameters
    | .deviceIntermediate => if isBetween 0x30 0x7e c then .string else .deviceIntermediate
    | .string => if hasTerminator c then .none else .string
    | .command => if c = '\x07' then .none else .command

/-- Whether a character is shown in a sequence, which may be suspended. -/
def shows (s : Sequence) (suspended : Bool) (c : Char) : Bool :=
  if suspended || s = .none then isShown c else s.yields && isControlBlank c

end Sequence

/-! ### Plain texts -/

/-- The characters that are shown behind the beginning of a sequence, which may be suspended. -/
def shownCharacters (s : Sequence) (suspended : Bool) : List Char → List Char
  | [] => []
  | c :: cs =>
    if s.shows suspended c then
      c :: (if c.toNat < 0x80 then shownCharacters s true cs else shownCharacters .none false cs)
    else shownCharacters (s.next c) false cs

/-- A text without control sequences and control characters, except for blanks. -/
def plain (text : String) : String :=
  String.ofList (shownCharacters .none false text.toList)

/-- Characters that are shown stay when no sequence has begun. -/
theorem shownCharacters_eq_self {cs : List Char} (h : ∀ c ∈ cs, isShown c = true)
    (suspended : Bool) : shownCharacters .none suspended cs = cs := by
  induction cs generalizing suspended with
  | nil => rfl
  | cons c cs ih =>
    have hc : Sequence.none.shows suspended c = true := by
      simp [Sequence.shows, h c List.mem_cons_self]
    have hcs : ∀ x ∈ cs, isShown x = true := fun x hx => h x (List.mem_cons_of_mem c hx)
    rw [shownCharacters, if_pos hc, ih hcs true, ih hcs false, ite_self]

/-- A text without control characters is plain. -/
theorem plain_eq_self {text : String} (h : ∀ c ∈ text.toList, isShown c = true) :
    plain text = text := by
  rw [plain, shownCharacters_eq_self h, String.ofList_toList]

end FilterStore.Terminal
