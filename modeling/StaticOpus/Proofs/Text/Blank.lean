import StaticOpus.Text.Blank

/-!
# The words of a text

The words before a blank and those after it are the words of the whole.
-/

namespace StaticOpus.Text

variable {blank : Char} (space : isBlank blank = true)

include space

theorem words_append_blank (front rest : List Char) :
    words (front ++ blank :: rest) = words front ++ words rest := by
  rw [words, List.splitOnP_append_cons front rest space, List.filter_append]
  rfl

/-- A blank at the end of a text belongs to no word. -/
theorem words_append_singleton (text : List Char) : words (text ++ [blank]) = words text := by
  rw [words_append_blank space text []]
  exact List.append_nil _

omit space

/-- Some characters that make up a word. -/
def IsWord (word : List Char) : Prop := word ≠ [] ∧ word.any isBlank = false

instance (word : List Char) : Decidable (IsWord word) := inferInstanceAs (Decidable (_ ∧ _))

theorem words_of_isWord {word : List Char} (h : IsWord word) : words word = [word] := by
  have solid : ∀ c ∈ word, isBlank c = false := by
    simpa only [List.any_eq_false, Bool.not_eq_true] using h.2
  rw [words, List.splitOnP_eq_singleton solid]
  simp [h.1]

theorem isBlank_of_isDigit {c : Char} (digit : c.isDigit = true) : isBlank c = false := by
  have least : 48 ≤ c.toNat := (Char.isDigit_iff_toNat.mp digit).1
  have most : c.toNat ≤ 57 := (Char.isDigit_iff_toNat.mp digit).2
  simp [isBlank, blankRanges]
  omega

end StaticOpus.Text
