/-!
Reading TOML: characters, blanks, lines and repetition.

A `Reading` takes characters from the front of a text or fails; `<|>` tries a second reading from the
same place. `repeated` runs a step as long as it finds something: each find takes a character, so
the length of the text bounds the number of steps.
-/

namespace FilterStore.Toml

/-- A step that takes characters from the front of a text. -/
abbrev Reading := StateT (List Char) Option

/-- The next character, which is not taken. -/
def peek : Reading (Option Char) := fun cs =>
  some (cs.head?, cs)

/-- Takes the characters in front that have a property. -/
def taking (p : Char → Bool) : Reading (List Char) := fun cs =>
  some (cs.takeWhile p, cs.dropWhile p)

/-- Takes one character that has a property. -/
def characterWith (p : Char → Bool) : Reading Char := fun cs =>
  match cs with
  | [] => none
  | c :: rest => if p c then some (c, rest) else none

/-- Takes one given character. -/
def character (c : Char) : Reading Unit :=
  discard (characterWith (· == c))

/-- Takes a given word. -/
def word (w : String) : Reading Unit := fun cs =>
  if w.toList.isPrefixOf cs then some ((), cs.drop w.length) else none

/-- Takes what a reading finds, if it finds something. -/
def perhaps {α : Type} (reading : Reading α) : Reading (Option α) :=
  some <$> reading <|> pure none

/-- Runs a step at most `bound` times, until it finds nothing. -/
def repeatedAtMost {α : Type} (step : Reading (Option α)) : Nat → Reading (List α)
  | 0 => failure
  | bound + 1 => do
    match ← step with
    | none => return []
    | some a => return a :: (← repeatedAtMost step bound)

/-- Runs a step that takes at least one character whenever it finds something, until it finds
nothing. -/
def repeated {α : Type} (step : Reading (Option α)) : Reading (List α) := fun cs =>
  repeatedAtMost step (cs.length + 1) cs

/-! ### Blanks and lines -/

/-- The blanks within a line. -/
def isBlank (c : Char) : Bool :=
  c == ' ' || c == '\t'

/-- The characters that may stand in a line: all but the controls, and the tab. -/
def isPlain (c : Char) : Bool :=
  c == '\t' || (0x20 ≤ c.toNat && c.toNat != 0x7F)

/-- Takes blanks. -/
def blanks : Reading Unit :=
  discard (taking isBlank)

/-- Takes the end of a line: a line feed, with a carriage return in front or not. -/
def newline : Reading Unit :=
  word "\n" <|> word "\r\n"

/-- Succeeds at the end of the text. -/
def endOfText : Reading Unit := fun cs =>
  if cs.isEmpty then some ((), cs) else none

/-- Takes a comment, up to the end of its line. -/
def comment : Reading Unit := do
  character '#'
  discard (taking isPlain)

/-- Takes the rest of a line, which may hold a comment, and its end. -/
def restOfLine : Reading Unit := do
  blanks
  discard (perhaps comment)
  newline <|> endOfText

/-- Takes blanks, comments and ends of lines. -/
def gap : Reading Unit :=
  discard (repeated (perhaps (discard (characterWith isBlank) <|> newline <|> (do comment; newline))))

end FilterStore.Toml
