import FilterStore.Failure

/-!
What files hold.

`textOfBytes` reads bytes as a text in UTF-8. A text is read from its own bytes and from no others
(`textOfBytes_eq_ok_iff`).
-/

namespace FilterStore

/-- The text of bytes, if they are the UTF-8 form of one. -/
def textOfBytes (bytes : ByteArray) : Except FileFault String :=
  match String.fromUTF8? bytes with
  | some s => .ok s
  | none => .error .notText

/-- A text is read from its own bytes and from no others. -/
theorem textOfBytes_eq_ok_iff {bytes : ByteArray} {s : String} :
    textOfBytes bytes = .ok s ↔ bytes = s.toUTF8 := by
  constructor
  · intro h
    rw [textOfBytes] at h
    split at h
    · next found =>
      rw [String.fromUTF8?] at found
      split at found
      · cases found
        cases h
        rfl
      · cases found
    · cases h
  · intro h
    have found : String.fromUTF8? s.toUTF8 = some s := dif_pos s.isValidUTF8
    rw [h, textOfBytes, found]

end FilterStore
