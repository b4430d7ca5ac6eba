/-!
The order of texts by the bytes of their UTF-8 form.

* **The bytes.** `bytes s` is the UTF-8 form of `s`, and it determines `s` (`bytes_inj`).
* **The order.** `precedes` compares bytes from the left, and a proper beginning comes first. It is
  a strict total order: `precedes_irrefl`, `precedes_trans`, `precedes_total`.
-/

namespace FilterStore.Text

/-- The bytes of the UTF-8 form of a text. -/
def bytes (s : String) : List UInt8 :=
  s.toByteArray.data.toList

/-- A text is determined by its bytes. -/
theorem bytes_inj {s t : String} : bytes s = bytes t ↔ s = t := by
  constructor
  · intro h
    apply String.toByteArray_inj.1
    exact ByteArray.ext (Array.toList_inj.1 h)
  · rintro rfl
    rfl

/-- Whether one sequence of bytes comes before another: at the first difference the smaller byte
decides, and a proper beginning comes first. -/
def bytesPrecede : List UInt8 → List UInt8 → Bool
  | [], [] => false
  | [], _ :: _ => true
  | _ :: _, [] => false
  | a :: as, b :: bs => a.toNat < b.toNat || (a.toNat == b.toNat && bytesPrecede as bs)

/-- Whether one text comes before another in the order of their UTF-8 bytes. -/
def precedes (s t : String) : Bool :=
  bytesPrecede (bytes s) (bytes t)

/-! ### A strict total order -/

theorem bytesPrecede_irrefl (as : List UInt8) : bytesPrecede as as = false := by
  induction as with
  | nil => rfl
  | cons a as ih => simp [bytesPrecede, ih]

theorem bytesPrecede_trans {as bs cs : List UInt8} (h₁ : bytesPrecede as bs = true)
    (h₂ : bytesPrecede bs cs = true) : bytesPrecede as cs = true := by
  induction as generalizing bs cs with
  | nil =>
    cases bs with
    | nil => simp [bytesPrecede] at h₁
    | cons b bs =>
      cases cs with
      | nil => simp [bytesPrecede] at h₂
      | cons c cs => rfl
  | cons a as ih =>
    cases bs with
    | nil => simp [bytesPrecede] at h₁
    | cons b bs =>
      cases cs with
      | nil => simp [bytesPrecede] at h₂
      | cons c cs =>
        simp only [bytesPrecede, Bool.or_eq_true, decide_eq_true_eq, Bool.and_eq_true,
          beq_iff_eq] at h₁ h₂ ⊢
        rcases h₁ with h₁ | ⟨h₁, h₁'⟩ <;> rcases h₂ with h₂ | ⟨h₂, h₂'⟩
        · left; omega
        · left; omega
        · left; omega
        · exact .inr ⟨by omega, ih h₁' h₂'⟩

theorem bytesPrecede_total {as bs : List UInt8} (h : as ≠ bs) :
    bytesPrecede as bs = true ∨ bytesPrecede bs as = true := by
  induction as generalizing bs with
  | nil =>
    cases bs with
    | nil => exact absurd rfl h
    | cons b bs => exact .inl rfl
  | cons a as ih =>
    cases bs with
    | nil => exact .inr rfl
    | cons b bs =>
      simp only [bytesPrecede, Bool.or_eq_true, decide_eq_true_eq, Bool.and_eq_true, beq_iff_eq]
      rcases Nat.lt_trichotomy a.toNat b.toNat with hab | hab | hab
      · exact .inl (.inl hab)
      · have hne : as ≠ bs := by
          rintro rfl
          exact h (by rw [UInt8.toNat_inj.1 hab])
        rcases ih hne with h' | h'
        · exact .inl (.inr ⟨hab, h'⟩)
        · exact .inr (.inr ⟨hab.symm, h'⟩)
      · exact .inr (.inl hab)

/-- No text comes before itself. -/
theorem precedes_irrefl (s : String) : precedes s s = false :=
  bytesPrecede_irrefl _

/-- The order of texts is transitive. -/
theorem precedes_trans {s t u : String} (h₁ : precedes s t = true) (h₂ : precedes t u = true) :
    precedes s u = true :=
  bytesPrecede_trans h₁ h₂

/-- Of two different texts one comes first. -/
theorem precedes_total {s t : String} (h : s ≠ t) : precedes s t = true ∨ precedes t s = true :=
  bytesPrecede_total fun e => h (bytes_inj.1 e)

end FilterStore.Text
