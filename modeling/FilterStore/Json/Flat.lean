import FilterStore.Json.Token

/-!
Objects and arrays of plain values.

* **Values.** A `Scalar` is a value without parts. What has parts, and a quoted text that denotes
  none, is `Scalar.other`: it may stand under a name that nobody asks for.
* **Writing.** `objectTokens` and `render` write an object without blanks, its members in order.
* **Reading.** `read?` reads a whole text and gives its `Shape`: a plain value, the members of an
  object or the elements of an array. Values with parts inside are passed over by `pastValue?`,
  which checks their form at any depth.
* **Names.** `member?` finds the member of a name and refuses two of one name.
-/

namespace FilterStore.Json

/-- A value as far as it is looked at. -/
inductive Scalar where
  /-- The value `null`. -/
  | null
  /-- A truth value. -/
  | bool (value : Bool)
  /-- A number, as written. -/
  | number (digits : List Char)
  /-- A text. -/
  | text (s : String)
  /-- An object, an array, or a quoted text that denotes no text. -/
  | other
  deriving DecidableEq, Repr

/-- A member of an object. -/
abbrev Member := String × Scalar

/-! ### Writing -/

/-- The token of a value. -/
def Scalar.token : Scalar → Token
  | .null => .null
  | .bool value => .bool value
  | .number digits => .number digits
  | .text s => .quoted (some s)
  | .other => .quoted none

/-- The tokens of the members of an object, with commas between them. -/
def memberTokens : List Member → List Token
  | [] => []
  | [(name, value)] => [.quoted (some name), .colon, value.token]
  | (name, value) :: rest =>
    .quoted (some name) :: .colon :: value.token :: .comma :: memberTokens rest

/-- The tokens of an object. -/
def objectTokens (members : List Member) : List Token :=
  .objectStart :: memberTokens members ++ [.objectEnd]

/-- The text of tokens, without blanks. -/
def render (tokens : List Token) : String :=
  String.ofList (tokens.flatMap Token.spell)

/-! ### Passing over values -/

/-- An object or array that is not closed yet. -/
inductive Container where
  /-- An object. -/
  | object
  /-- An array. -/
  | array
  deriving DecidableEq, Repr

/-- What may come next inside a value. -/
inductive Expect where
  /-- A value. -/
  | value
  /-- A value, or the end of the array just begun. -/
  | firstValue
  /-- A name. -/
  | name
  /-- A name, or the end of the object just begun. -/
  | firstName
  /-- The colon behind a name. -/
  | colon
  /-- What follows a value inside the innermost container. -/
  | next
  deriving DecidableEq, Repr

/-- What is open and may come next behind a token that begins a value. -/
def begin? (stack : List Container) : Token → Option (List Container × Expect)
  | .objectStart => some (.object :: stack, .firstName)
  | .arrayStart => some (.array :: stack, .firstValue)
  | .null | .bool _ | .number _ | .quoted _ => some (stack, .next)
  | _ => none

/-- What is open and may come next behind a token. -/
def advance? (stack : List Container) : Expect → Token → Option (List Container × Expect)
  | .value, t => begin? stack t
  | .firstValue, .arrayEnd => some (stack.tail, .next)
  | .firstValue, t => begin? stack t
  | .name, .quoted _ => some (stack, .colon)
  | .firstName, .quoted _ => some (stack, .colon)
  | .firstName, .objectEnd => some (stack.tail, .next)
  | .colon, .colon => some (stack, .value)
  | .next, .comma =>
    match stack with
    | .object :: _ => some (stack, .name)
    | .array :: _ => some (stack, .value)
    | [] => none
  | .next, .objectEnd => if stack.head? = some .object then some (stack.tail, .next) else none
  | .next, .arrayEnd => if stack.head? = some .array then some (stack.tail, .next) else none
  | _, _ => none

/-- Passes over tokens until nothing is open and nothing is missing. -/
def pastValue? (stack : List Container) (expect : Expect) : List Token → Option (List Token)
  | [] => if stack = [] ∧ expect = .next then some [] else none
  | t :: rest =>
    if stack = [] ∧ expect = .next then some (t :: rest)
    else
      match advance? stack expect t with
      | some (stack, expect) => pastValue? stack expect rest
      | none => none

/-- Nothing is added to what is left. -/
theorem length_le_of_pastValue? {stack : List Container} {expect : Expect} {ts rest : List Token}
    (h : pastValue? stack expect ts = some rest) : rest.length ≤ ts.length := by
  induction ts generalizing stack expect with
  | nil =>
    simp only [pastValue?] at h
    split at h <;> cases h
    exact Nat.le_refl _
  | cons t ts ih =>
    simp only [pastValue?] at h
    split at h
    · cases h
      exact Nat.le_refl _
    · split at h
      · exact Nat.le_succ_of_le (ih h)
      · cases h

/-! ### Reading -/

/-- Takes one value. -/
def value? : List Token → Option (Scalar × List Token)
  | [] => none
  | .null :: rest => some (.null, rest)
  | .bool value :: rest => some (.bool value, rest)
  | .number digits :: rest => some (.number digits, rest)
  | .quoted (some s) :: rest => some (.text s, rest)
  | .quoted none :: rest => some (.other, rest)
  | t :: rest => do
    let (stack, expect) ← begin? [] t
    let rest ← pastValue? stack expect rest
    return (.other, rest)

/-- A value takes at least one token. -/
theorem length_of_value? {ts rest : List Token} {v : Scalar} (h : value? ts = some (v, rest)) :
    rest.length < ts.length := by
  unfold value? at h
  split at h
  case h_1 => cases h
  case h_7 t tail _ _ _ _ _ =>
    cases hb : begin? [] t with
    | none => simp [hb] at h
    | some p =>
      cases hp : pastValue? p.1 p.2 tail with
      | none => simp [hb, hp] at h
      | some r =>
        simp only [hb, hp, Option.bind_eq_bind, Option.bind_some, Option.pure_def,
          Option.some.injEq, Prod.mk.injEq] at h
        have := length_le_of_pastValue? hp
        simp only [List.length_cons]
        rw [← h.2]
        omega
  all_goals
    cases h
    simp

/-- Reads the members of an object behind its beginning, at least one, to the end of the text. -/
def membersFrom? (ts : List Token) : Option (List Member) :=
  match ts with
  | .quoted (some name) :: .colon :: rest =>
    match _h : value? rest with
    | some (v, [.objectEnd]) => some [(name, v)]
    | some (v, .comma :: more) => ((name, v) :: ·) <$> membersFrom? more
    | _ => none
  | _ => none
termination_by ts.length
decreasing_by
  have := length_of_value? ‹_›
  simp only [List.length_cons] at this ⊢
  omega

/-- Reads the elements of an array behind its beginning, at least one, to the end of the text. -/
def elementsFrom? (ts : List Token) : Option (List Scalar) :=
  match _h : value? ts with
  | some (v, [.arrayEnd]) => some [v]
  | some (v, .comma :: more) => (v :: ·) <$> elementsFrom? more
  | _ => none
termination_by ts.length
decreasing_by
  have := length_of_value? ‹_›
  simp only [List.length_cons] at this ⊢
  omega

/-- What a text is, as far as it is looked at. -/
inductive Shape where
  /-- A plain value. -/
  | scalar (value : Scalar)
  /-- An object, with its members in order. -/
  | object (members : List Member)
  /-- An array, with its elements in order. -/
  | array (elements : List Scalar)
  deriving DecidableEq, Repr

/-- Reads the tokens of a whole text. -/
def shapeOf? : List Token → Option Shape
  | [.objectStart, .objectEnd] => some (.object [])
  | .objectStart :: rest => .object <$> membersFrom? rest
  | [.arrayStart, .arrayEnd] => some (.array [])
  | .arrayStart :: rest => .array <$> elementsFrom? rest
  | ts =>
    match value? ts with
    | some (v, []) => some (.scalar v)
    | _ => none

/-- Reads a whole text. -/
def read? (s : String) : Option Shape :=
  tokens? s.toList >>= shapeOf?

/-! ### Members by name -/

/-- The member of a name, if there is at most one: `some none` if there is none. -/
def member? (name : String) (members : List Member) : Option (Option Scalar) :=
  match members.filter (·.1 = name) with
  | [] => some none
  | [m] => some (some m.2)
  | _ => none

/-- The one member of a name. -/
def required? (name : String) (members : List Member) : Option Scalar :=
  (member? name members).join

end FilterStore.Json
