import Mathlib.Data.List.TakeWhile
import StaticOpus.Proofs.Text.Lossy
import StaticOpus.Proofs.Text.Utf8
import StaticOpus.Text.CString

/-!
# What is read of a terminated byte string

Only the bytes before the first zero byte count. They are read as the text whose bytes they are, or
not at all.
-/

namespace StaticOpus.Text.CString

open Utf8

variable {bytes : List UInt8}

/-- Nothing after a zero byte belongs to the string. -/
theorem content_append_zero (bytes rest : List UInt8) :
    content (bytes ++ 0 :: rest) = content bytes := by
  induction bytes with
  | nil => rfl
  | cons first bytes ih =>
      by_cases zero : first = 0
      · subst zero
        rfl
      · simp only [content, List.cons_append] at ih ⊢
        rw [List.takeWhile_cons_of_pos (by simpa using zero),
          List.takeWhile_cons_of_pos (by simpa using zero), ih]

/-- Some bytes are those before the first zero byte of others, once one has been put at the end. -/
def BeforeZero (front bytes : List UInt8) : Prop :=
  ∃ rest, bytes ++ [0] = front ++ 0 :: rest ∧ 0 ∉ front

theorem content_of_unterminated (free : 0 ∉ bytes) : content bytes = bytes := by
  rw [content, List.takeWhile_eq_self_iff]
  intro byte mem
  rw [decide_eq_true_iff]
  rintro rfl
  exact free mem

theorem beforeZero_content (bytes : List UInt8) : BeforeZero (content bytes) bytes := by
  induction bytes with
  | nil => exact ⟨[], rfl, List.not_mem_nil⟩
  | cons first bytes ih =>
      by_cases zero : first = 0
      · subst zero
        exact ⟨bytes ++ [0], rfl, List.not_mem_nil⟩
      · have held : content (first :: bytes) = first :: content bytes :=
          List.takeWhile_cons_of_pos (by simpa using zero)
        obtain ⟨rest, cut, free⟩ := ih
        refine ⟨rest, ?_, ?_⟩
        · rw [held, List.cons_append, cut, List.cons_append]
        · rw [held, List.mem_cons, not_or]
          exact ⟨Ne.symm zero, free⟩

theorem beforeZero_iff {front : List UInt8} : BeforeZero front bytes ↔ front = content bytes := by
  constructor
  · rintro ⟨rest, cut, free⟩
    calc
      front = content front := (content_of_unterminated free).symm
      _ = content (front ++ 0 :: rest) := (content_append_zero front rest).symm
      _ = content (bytes ++ [0]) := by rw [cut]
      _ = content bytes := content_append_zero bytes []
  · rintro rfl
    exact beforeZero_content bytes

theorem read_append_zero (bytes rest : List UInt8) :
    read (some (bytes ++ 0 :: rest)) = read (some bytes) := by
  rw [read, read, content_append_zero]

theorem read_of_text {text : String} (h : content bytes = encode text) :
    read (some bytes) = .text text := by
  rw [read, decode?_eq_some_iff.mpr h]

theorem read_of_not_isText (h : ¬ IsText (content bytes)) : read (some bytes) = .invalid := by
  rw [read, decode?_eq_none_iff.mpr h]

/-- A text without the zero character is read back from its bytes. -/
theorem read_encode {text : String} (free : '\x00' ∉ text.toList) :
    read (some (encode text)) = .text text := by
  apply read_of_text
  apply content_of_unterminated
  intro mem
  exact free (mem_of_plain_mem_encode (by decide) mem)

end StaticOpus.Text.CString
