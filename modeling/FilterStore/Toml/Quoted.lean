import FilterStore.Toml.Reading

/-!
Texts and keys of TOML.

* **Texts.** A basic text stands in double quotes and may hold escapes, a literal text in single
  quotes and may not. Either may stand in three quotes of its kind and then go over several lines;
  a line feed right behind the opening is dropped, and each end of a line counts as one line feed.
  In a basic text a backslash at the end of a line takes the following blanks and lines away. One or
  two quotes may stand in the text, also right before the closing three.
* **Keys.** `key` reads the parts of a key, separated by points: bare words or texts on one line.
-/

namespace FilterStore.Toml

/-! ### Escapes -/

/-- Whether a character is a digit of base 16. -/
def isHexDigit (c : Char) : Bool :=
  c.isDigit || ('a' ≤ c && c ≤ 'f') || ('A' ≤ c && c ≤ 'F')

/-- The value of digits of a base up to 16. -/
def valueInBase (base : Nat) (digits : List Char) : Nat :=
  digits.foldl (fun n c => base * n +
    if c.isDigit then c.toNat - '0'.toNat else c.toLower.toNat - 'a'.toNat + 10) 0

/-- Takes the character of a code point that is written with a given number of digits. -/
def codePoint (width : Nat) : Reading Char := fun cs =>
  let digits := cs.take width
  let n := valueInBase 16 digits
  if digits.length = width ∧ digits.all isHexDigit ∧ n.isValidChar then
    some (Char.ofNat n, cs.drop width)
  else none

/-- Takes an escape and gives the character meant. -/
def escape : Reading Char := do
  character '\\'
  match ← characterWith fun _ => true with
  | 'b' => return '\x08'
  | 't' => return '\t'
  | 'n' => return '\n'
  | 'f' => return '\x0c'
  | 'r' => return '\r'
  | '"' => return '"'
  | '\\' => return '\\'
  | 'u' => codePoint 4
  | 'U' => codePoint 8
  | _ => failure

/-! ### Texts -/

/-- Whether a character stands for itself in a basic text. -/
def isBasic (c : Char) : Bool :=
  isPlain c && c != '"' && c != '\\'

/-- Whether a character stands for itself in a literal text. -/
def isLiteral (c : Char) : Bool :=
  isPlain c && c != '\''

/-- Takes a basic text on one line. -/
def basicText : Reading (List Char) := do
  character '"'
  let cs ← repeated (perhaps (characterWith isBasic <|> escape))
  character '"'
  return cs

/-- Takes a literal text on one line. -/
def literalText : Reading (List Char) := do
  character '\''
  let cs ← taking isLiteral
  character '\''
  return cs

/-- Takes one or two quotes that belong to a text over several lines. -/
def innerQuotes (quote : Char) : Reading (List Char) := do
  let cs ← taking (· == quote)
  if 0 < cs.length ∧ cs.length < 3 then return cs else failure

/-- Takes the closing three quotes and gives the one or two quotes of the text before them. -/
def closingQuotes (quote : Char) : Reading (List Char) := do
  let cs ← taking (· == quote)
  if 3 ≤ cs.length ∧ cs.length ≤ 5 then return cs.drop 3 else failure

/-- Takes a backslash at the end of a line with the blanks and ends of lines behind it. -/
def continuation : Reading (List Char) := do
  character '\\'
  blanks
  newline
  discard (repeated (perhaps (discard (characterWith isBlank) <|> newline)))
  return []

/-- Takes a part of a text over several lines: what stands for itself, or an end of a line. -/
def linePart (stands : Char → Bool) : Reading (List Char) :=
  (fun c => [c]) <$> characterWith stands <|> (fun _ => ['\n']) <$> newline

/-- Takes a basic text in three quotes. -/
def basicLines : Reading (List Char) := do
  word "\"\"\""
  discard (perhaps newline)
  let parts ← repeated (perhaps
    (linePart isBasic <|> continuation <|> (fun c => [c]) <$> escape <|> innerQuotes '"'))
  return parts.flatten ++ (← closingQuotes '"')

/-- Takes a literal text in three quotes. -/
def literalLines : Reading (List Char) := do
  word "'''"
  discard (perhaps newline)
  let parts ← repeated (perhaps (linePart isLiteral <|> innerQuotes '\''))
  return parts.flatten ++ (← closingQuotes '\'')

/-- Takes a text of any kind. -/
def text : Reading String :=
  String.ofList <$> (basicLines <|> basicText <|> literalLines <|> literalText)

/-! ### Keys -/

/-- Whether a character may stand in a bare key. -/
def isBare (c : Char) : Bool :=
  c.isAlphanum || c == '_' || c == '-'

/-- Takes a bare key, which has at least one character. -/
def bareKey : Reading (List Char) := do
  let cs ← taking isBare
  if cs.isEmpty then failure else return cs

/-- Takes one part of a key with the blanks around it. -/
def keyPart : Reading String := do
  blanks
  let cs ← basicText <|> literalText <|> bareKey
  blanks
  return String.ofList cs

/-- The number of levels that keys and values may not reach. -/
def levelLimit : Nat := 80

/-- Takes a key: its parts, with points between them. -/
def key : Reading (List String) := do
  let first ← keyPart
  let rest ← repeated (perhaps (do character '.'; keyPart))
  if rest.length + 1 < levelLimit then return first :: rest else failure

end FilterStore.Toml
