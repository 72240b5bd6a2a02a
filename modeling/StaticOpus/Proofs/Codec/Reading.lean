import StaticOpus.Codec.Link
import StaticOpus.Fatal
import StaticOpus.Proofs.Text.CString
import StaticOpus.Proofs.Text.Decimal

/-!
# What is read of the codec's texts

The codec hands out its texts as terminated byte strings, or none. Each is read as the text whose
bytes stand before the first zero byte. Where there is no string, or these bytes are not UTF-8, a
fixed text stands in for it, and nothing of the bytes is shown.

## Implementation notes

A reader that falls back on one text does not tell a missing string from an unreadable one; the
message of a fatal error does. Both are the same reading with different texts to stand in.
-/

namespace StaticOpus.Text

open CString Utf8

/-- What is to be read of a terminated byte string, with the texts that stand in where there is none
and where it is not UTF-8. -/
inductive ReadsAs (absent unreadable : String) : Option (List UInt8) → String → Prop
  | null : ReadsAs absent unreadable none absent
  | text {bytes : List UInt8} {text : String} (held : BeforeZero (encode text) bytes) :
      ReadsAs absent unreadable (some bytes) text
  | invalid {bytes front : List UInt8} (held : BeforeZero front bytes) (broken : ¬ IsText front) :
      ReadsAs absent unreadable (some bytes) unreadable

/-- What is to be read is there, and it is one text. -/
theorem readsAs_iff {absent unreadable result : String} {given : Option (List UInt8)} :
    ReadsAs absent unreadable given result ↔
      result =
        match read given with
        | .null => absent
        | .invalid => unreadable
        | .text text => text := by
  constructor
  · rintro (_ | held | ⟨held, broken⟩)
    · rfl
    · rw [read_of_text (beforeZero_iff.mp held).symm]
    · rw [read_of_not_isText (beforeZero_iff.mp held ▸ broken)]
  · rintro rfl
    cases given with
    | none => exact .null
    | some bytes =>
        by_cases readable : IsText (content bytes)
        · obtain ⟨text, content_eq⟩ := readable
          rw [read_of_text content_eq]
          exact .text (beforeZero_iff.mpr content_eq.symm)
        · rw [read_of_not_isText readable]
          exact .invalid (beforeZero_content bytes) readable

theorem getD_eq_iff {fallback result : String} {given : Option (List UInt8)} :
    (read given).getD fallback = result ↔ ReadsAs fallback fallback given result := by
  rw [readsAs_iff, eq_comm]
  cases read given <;> rfl

theorem shown_eq_iff {result : String} {given : Option (List UInt8)} :
    Fatal.shown given = result ↔ ReadsAs "<null>" "<invalid utf-8>" given result := by
  rw [readsAs_iff, eq_comm]
  rfl

/-- The codec's texts are read exactly. With one text to stand in, with one for each cause, and in
each of the places that read one, what is read is the text whose bytes stand before the first zero
byte, or a text to stand in where there is none. A text without the zero character comes through
unchanged, nothing after a zero byte matters, and where there is a text the readers agree on it. The
message of a fatal error holds the two readings and the number of the line, with its sign. -/
theorem read_exactly_before_zero (given reason file : Option (List UInt8))
    (bytes rest : List UInt8) (text fallback result : String) (link : Link) (code line : Int32) :
    ((read given).getD fallback = result ↔ ReadsAs fallback fallback given result) ∧
    (Fatal.shown given = result ↔ ReadsAs "<null>" "<invalid utf-8>" given result) ∧
    ReadsAs "" "" link.codec.version link.version.1 ∧
    ReadsAs "Unknown error" "Unknown error" (link.codec.text code) (link.explain code).1 ∧
    ('\x00' ∉ text.toList →
      (read (some (encode text))).getD fallback = text ∧
      Fatal.shown (some (encode text)) = text) ∧
    ((read (some (bytes ++ 0 :: rest))).getD fallback = (read (some bytes)).getD fallback ∧
      Fatal.shown (some (bytes ++ 0 :: rest)) = Fatal.shown (some bytes)) ∧
    (BeforeZero (encode text) bytes →
      (read (some bytes)).getD fallback = Fatal.shown (some bytes)) ∧
    ∃ why place, ReadsAs "<null>" "<invalid utf-8>" reason why ∧
      ReadsAs "<null>" "<invalid utf-8>" file place ∧
      Fatal.message reason file line =
        "celt_fatal: " ++ why ++ ": " ++ place ++ ": " ++
          ((if line.toInt < 0 then "-" else "") ++ toString line.toInt.natAbs) := by
  refine ⟨getD_eq_iff, shown_eq_iff, getD_eq_iff.mp rfl, getD_eq_iff.mp rfl, ?_, ?_, ?_,
    Fatal.shown reason, Fatal.shown file, shown_eq_iff.mp rfl, shown_eq_iff.mp rfl, ?_⟩
  · intro free
    have unchanged : read (some (encode text)) = .text text := read_encode free
    constructor
    · rw [unchanged]
      rfl
    · rw [Fatal.shown, unchanged]
  · constructor
    · rw [read_append_zero]
    · rw [Fatal.shown, Fatal.shown, read_append_zero]
  · intro held
    exact (getD_eq_iff.mpr (.text held)).trans (shown_eq_iff.mpr (.text held)).symm
  · unfold Fatal.message
    rw [toString_int]

theorem read_exactly_of_surrogate :
    Fatal.shown (some [0xED, 0xA0, 0x80]) = "<invalid utf-8>" ∧
      (read (some (encode "st->channels == 1"))).getD "" = "st->channels == 1" ∧
      (read (some [0x6F, 0x6B, 0x00, 0xFF])).getD "Unknown error" =
        Fatal.shown (some [0x6F, 0x6B, 0x00, 0xFF]) := by
  have surrogate : ¬ IsText [0xED, 0xA0, 0x80] := decode?_eq_none_iff.mp (by decide)
  have whole : BeforeZero [0xED, 0xA0, 0x80] [0xED, 0xA0, 0x80] := beforeZero_iff.mpr (by decide)
  have cut : BeforeZero (encode "ok") [0x6F, 0x6B, 0x00, 0xFF] := beforeZero_iff.mpr (by decide)
  obtain ⟨-, shown, -, -, unchanged, -⟩ :=
    read_exactly_before_zero (some [0xED, 0xA0, 0x80]) none none [] [] "st->channels == 1" ""
      "<invalid utf-8>" (Link.fresh ⟨.mono⟩ {}) 0 0
  obtain ⟨-, -, -, -, -, -, agree, -⟩ :=
    read_exactly_before_zero none none none [0x6F, 0x6B, 0x00, 0xFF] [] "ok" "Unknown error" ""
      (Link.fresh ⟨.mono⟩ {}) 0 0
  exact ⟨shown.mpr (.invalid whole surrogate), (unchanged (by decide)).1, agree cut⟩

end StaticOpus.Text
