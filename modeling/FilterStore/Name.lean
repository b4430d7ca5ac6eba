/-!
The names that a repository accepts.

Owners and scripts are named by texts that are not empty, have a bounded length in bytes and hold
no character that would break a line or end a text. `Name.check` looks for the faults in this order
and reports the first; it finds none exactly in the names that are `Name.Valid`
(`check_eq_ok_iff`).
-/

namespace FilterStore.Name

/-- What a name is for. -/
inductive Role where
  /-- The owner of scripts. -/
  | owner
  /-- A script of an owner. -/
  | script
  deriving DecidableEq, Repr

/-- How a name is called in messages. -/
def Role.label : Role → String
  | .owner => "Owner"
  | .script => "Script name"

/-- The greatest length of a name in bytes. -/
def Role.maxBytes : Role → Nat
  | .owner => 255
  | .script => 1024

/-- The text that stands for no script where a script is named. -/
def noScript : String := ""

/-- Why a text is not a name. -/
inductive Fault where
  /-- The text is empty. -/
  | empty
  /-- The text has more bytes than a name may have. -/
  | tooLong
  /-- The text holds a character that names must not hold. -/
  | badCharacter
  deriving DecidableEq, Repr

/-- What is said about a text that is not a name. -/
def Fault.message (role : Role) : Fault → String
  | .empty => s!"{role.label} cannot be empty"
  | .tooLong => s!"{role.label} cannot exceed {role.maxBytes} bytes"
  | .badCharacter => s!"{role.label} contains invalid characters"

/-- The characters that names must not hold: NUL, line feed and carriage return. -/
def forbidden : List Char :=
  ['\x00', '\n', '\r']

/-- Whether a text is a name. -/
def Valid (role : Role) (name : String) : Prop :=
  name ≠ "" ∧ name.utf8ByteSize ≤ role.maxBytes ∧ ∀ c ∈ name.toList, c ∉ forbidden

instance (role : Role) (name : String) : Decidable (Valid role name) :=
  inferInstanceAs (Decidable (_ ∧ _ ∧ _))

/-- Reports the first fault of a name. -/
def check (role : Role) (name : String) : Except Fault Unit :=
  if name = "" then .error .empty
  else if role.maxBytes < name.utf8ByteSize then .error .tooLong
  else if name.toList.any (· ∈ forbidden) then .error .badCharacter
  else .ok ()

/-- No fault is found exactly in a valid name. -/
theorem check_eq_ok_iff {role : Role} {name : String} :
    check role name = .ok () ↔ Valid role name := by
  unfold check Valid
  by_cases h₁ : name = ""
  · simp [h₁]
  · by_cases h₂ : role.maxBytes < name.utf8ByteSize
    · simp [h₁, h₂, Nat.not_le.2 h₂]
    · by_cases h₃ : name.toList.any (· ∈ forbidden) = true
      · simp only [h₁, h₂, h₃, if_false, if_true, reduceCtorEq, false_iff]
        rintro ⟨-, -, hall⟩
        obtain ⟨c, hc, hbad⟩ := List.any_eq_true.1 h₃
        exact hall c hc (by simpa using hbad)
      · simp only [h₁, h₂, h₃, if_false, Bool.false_eq_true, not_false_eq_true, true_and, true_iff,
          ne_eq]
        refine ⟨Nat.not_lt.1 h₂, fun c hc hbad => h₃ ?_⟩
        exact List.any_eq_true.2 ⟨c, hc, by simpa using hbad⟩

/-- The empty text is no name, so it is free to stand for "no script". -/
theorem not_valid_empty (role : Role) : ¬ Valid role "" :=
  fun h => h.1 rfl

end FilterStore.Name
