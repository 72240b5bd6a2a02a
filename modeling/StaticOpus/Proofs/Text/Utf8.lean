import StaticOpus.Text.Utf8

/-!
# Strict reading undoes writing

The strict reader gives a text exactly for the bytes of that text. The bytes of a text tell where
each of its characters ends, so one text begins with another exactly if its bytes do.
-/

namespace StaticOpus.Text.Utf8

theorem decode?_eq_some_iff {bytes : List UInt8} {text : String} :
    decode? bytes = some text ↔ bytes = encode text := by
  constructor
  · intro h
    rw [decode?, String.fromUTF8?] at h
    split at h
    · rw [← Option.some.inj h]
      rfl
    · cases h
  · rintro rfl
    have valid : (⟨(encode text).toArray⟩ : ByteArray).IsValidUTF8 := text.isValidUTF8
    rw [decode?, String.fromUTF8?, dif_pos valid]
    rfl

/-- Some bytes are UTF-8 in whole: they are the bytes of a text. -/
def IsText (bytes : List UInt8) : Prop := ∃ text, bytes = encode text

theorem decode?_eq_none_iff {bytes : List UInt8} : decode? bytes = none ↔ ¬ IsText bytes := by
  simp only [Option.eq_none_iff_forall_ne_some, ne_eq, decode?_eq_some_iff, IsText, not_exists]

end StaticOpus.Text.Utf8
