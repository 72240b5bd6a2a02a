import Mathlib
import StaticOpus.Proofs.Text.Decimal
import StaticOpus.Proofs.Text.Squeeze
import StaticOpus.Text.Record

/-!
# Texts with numbers in them

A wording is a text with numbers in it. Where no word has a character that numbers are written with
and words stand between any two numbers, the text tells both the words and the numbers. Where a
blank stands before each number, squeezing undoes the alignment of the numbers.
-/

namespace StaticOpus.Text

/-- Whether numbers are written with the character. -/
def isNumeral (c : Char) : Bool := c.isDigit || c == '-'

theorem isNumeral_of_mem_toString {value : Int} {c : Char} (mem : c ∈ (toString value).toList) :
    isNumeral c = true := by
  rw [toString_int, String.toList_append, List.mem_append] at mem
  rcases mem with sign | digit
  · split at sign
    · obtain rfl : c = '-' := List.mem_singleton.mp sign
      rfl
    · cases sign
  · rw [Nat.toString_eq_repr, Nat.toList_repr] at digit
    simp [isNumeral, Nat.isDigit_of_mem_toDigits (by decide) (by decide) digit]

theorem toString_int_ne_empty (value : Int) : (toString value).toList ≠ [] := by
  rw [toString_int, String.toList_append, Nat.toString_eq_repr, Nat.toList_repr]
  exact List.append_ne_nil_of_right_ne_nil _ Nat.toDigits_ne_nil

theorem takeWhile_append_of_sort {sort : Char → Bool} {front rest : List Char}
    (of_sort : ∀ c ∈ front, sort c = true) (ends : ∀ c ∈ rest.head?, sort c = false) :
    (front ++ rest).takeWhile sort = front := by
  rw [List.takeWhile_append_of_pos of_sort]
  cases rest with
  | nil => exact List.append_nil front
  | cons c rest => rw [List.takeWhile_cons_of_neg (by simp [ends c rfl]), List.append_nil]

/-- Characters of one sort and what follows them, if it starts with one of the other sort, can be
told apart in the whole. -/
theorem append_inj_of_sort (sort : Char → Bool) {front other rest after : List Char}
    (of_sort : ∀ c ∈ front, sort c = true) (other_of_sort : ∀ c ∈ other, sort c = true)
    (ends : ∀ c ∈ rest.head?, sort c = false) (other_ends : ∀ c ∈ after.head?, sort c = false)
    (same : front ++ rest = other ++ after) : front = other ∧ rest = after := by
  have fronts : front = other := by
    rw [← takeWhile_append_of_sort of_sort ends, same,
      takeWhile_append_of_sort other_of_sort other_ends]
  subst fronts
  exact ⟨rfl, List.append_cancel_left same⟩

/-- Words, or words before a number and what stands after it. -/
inductive Wording where
  | words (last : String)
  | number (before : String) (value : Int) (after : Wording)
  deriving DecidableEq

theorem alignRight_zero (text : String) : alignRight 0 text = text := by
  rw [alignRight, Nat.zero_sub]
  exact String.empty_append

namespace Wording

/-- The text, with every number right-aligned in the given width. -/
def written (width : Nat) : Wording → String
  | words last => last
  | number before value after => before ++ alignRight width (toString value) ++ after.written width

/-- The numbers in their order. -/
def numbers : Wording → List Int
  | words _ => []
  | number _ value after => value :: after.numbers

/-- The same words with zero for each number. -/
def zeroed : Wording → Wording
  | words last => words last
  | number before _ after => number before 0 after.zeroed

/-- Whether no character is one that numbers are written with. -/
def IsPlain (words : String) : Prop := words.toList.any isNumeral = false

instance (words : String) : Decidable (IsPlain words) := inferInstanceAs (Decidable (_ = false))

theorem IsPlain.eq_false {words : String} (plain : IsPlain words) {c : Char}
    (mem : c ∈ words.toList) : isNumeral c = false := by
  simpa using List.any_eq_false.mp plain c mem

/-- Whether a number can stand in front: the wording does not start with another number. -/
def Follows : Wording → Prop
  | words _ => True
  | number before _ _ => before ≠ ""

instance : (wording : Wording) → Decidable wording.Follows
  | words _ => inferInstanceAs (Decidable True)
  | number _ _ _ => inferInstanceAs (Decidable (_ ≠ _))

/-- Whether the text tells the words from the numbers. -/
def Legible : Wording → Prop
  | words last => IsPlain last
  | number before _ after => IsPlain before ∧ after.Follows ∧ after.Legible

instance decidableLegible : (wording : Wording) → Decidable wording.Legible
  | words last => inferInstanceAs (Decidable (IsPlain last))
  | number _ _ after =>
    have := decidableLegible after
    inferInstanceAs (Decidable (_ ∧ _ ∧ _))

/-- Whether a blank stands before each number, and no words have one blank after another. -/
def Spaced : Wording → Prop
  | words last => last.toList.IsChain Single
  | number before _ after =>
    before.toList.IsChain Single ∧ before.toList.getLast? = some ' ' ∧ after.Spaced

instance decidableSpaced : (wording : Wording) → Decidable wording.Spaced
  | words last => inferInstanceAs (Decidable (last.toList.IsChain Single))
  | number _ _ after =>
    have := decidableSpaced after
    inferInstanceAs (Decidable (_ ∧ _ ∧ _))

theorem legible_zeroed (wording : Wording) : wording.zeroed.Legible ↔ wording.Legible := by
  induction wording with
  | words => rfl
  | number before value after ih =>
      have follows : after.zeroed.Follows ↔ after.Follows := by cases after <;> rfl
      simp only [zeroed, Legible, follows, ih]

theorem spaced_zeroed (wording : Wording) : wording.zeroed.Spaced ↔ wording.Spaced := by
  induction wording with
  | words => rfl
  | number before value after ih => simp only [zeroed, Spaced, ih]

theorem toList_written_number (width : Nat) (before : String) (value : Int) (after : Wording) :
    ((number before value after).written width).toList =
      before.toList ++ (List.replicate (width - (toString value).length) ' ' ++
        ((toString value).toList ++ (after.written width).toList)) := by
  simp only [written, alignRight, String.toList_append, String.toList_ofList, List.append_assoc]

theorem toList_number (before : String) (value : Int) (after : Wording) :
    ((number before value after).written 0).toList =
      before.toList ++ ((toString value).toList ++ (after.written 0).toList) := by
  simp only [written, alignRight_zero, String.toList_append, List.append_assoc]

section Legible

variable {wording : Wording}

theorem head_of_follows (follows : wording.Follows) (legible : wording.Legible) :
    ∀ c ∈ (wording.written 0).toList.head?, isNumeral c = false := by
  intro c head
  cases wording with
  | words last => exact IsPlain.eq_false legible (List.mem_of_mem_head? head)
  | number before value after =>
      have some_words : before.toList ≠ [] := mt String.toList_eq_nil_iff.mp follows
      rw [toList_number, List.head?_append_of_ne_nil _ some_words] at head
      exact legible.1.eq_false (List.mem_of_mem_head? head)

theorem head_of_number (value : Int) (rest : List Char) :
    ∀ c ∈ ((toString value).toList ++ rest).head?, isNumeral c = true := by
  intro c head
  rw [List.head?_append_of_ne_nil _ (toString_int_ne_empty value)] at head
  exact isNumeral_of_mem_toString (List.mem_of_mem_head? head)

theorem words_ne_number {last : String} (plain : IsPlain last) (before : String) (value : Int)
    (after : Wording) : last ≠ (number before value after).written 0 := by
  rintro rfl
  obtain ⟨c, mem⟩ := List.exists_mem_of_ne_nil _ (toString_int_ne_empty value)
  have numeral := isNumeral_of_mem_toString mem
  have within : c ∈ ((number before value after).written 0).toList := by
    rw [toList_number]
    exact List.mem_append_right _ (List.mem_append_left _ mem)
  rw [plain.eq_false within] at numeral
  cases numeral

/-- A legible text is written for one wording only. -/
theorem eq_of_written_eq {other : Wording} (legible : wording.Legible)
    (also_legible : other.Legible) (same : wording.written 0 = other.written 0) :
    wording = other := by
  induction wording generalizing other with
  | words last =>
      cases other with
      | words => exact congrArg words same
      | number before value after => exact absurd same (words_ne_number legible before value after)
  | number before value after ih =>
      cases other with
      | words => exact absurd same.symm (words_ne_number also_legible before value after)
      | number before' value' after' =>
          obtain ⟨plain, follows, legible⟩ := legible
          obtain ⟨plain', follows', legible'⟩ := also_legible
          have chars := congrArg String.toList same
          rw [toList_number, toList_number] at chars
          -- The words end where the number starts, and the number where words start again.
          obtain ⟨words, rest⟩ := append_inj_of_sort (fun c => !isNumeral c)
            (fun _ mem => by rw [plain.eq_false mem]; rfl) (fun _ mem => by rw [plain'.eq_false mem]; rfl)
            (fun c head => by rw [head_of_number _ _ c head]; rfl)
            (fun c head => by rw [head_of_number _ _ c head]; rfl) chars
          obtain ⟨digits, afters⟩ := append_inj_of_sort isNumeral
            (fun _ mem => isNumeral_of_mem_toString mem) (fun _ mem => isNumeral_of_mem_toString mem)
            (head_of_follows follows legible) (head_of_follows follows' legible') rest
          rw [String.toList_inj.mp words, Int.repr_inj.mp (String.toList_inj.mp digits),
            ih legible legible' (String.toList_inj.mp afters)]

end Legible

section Spaced

variable {wording : Wording}

theorem squeeze_append_written (spaced : wording.Spaced) (front : List Char) (width : Nat) :
    squeeze (front ++ (wording.written width).toList) =
      squeeze (front ++ (wording.written 0).toList) := by
  induction wording generalizing front with
  | words last => rfl
  | number before value after ih =>
      obtain ⟨-, blank, spaced⟩ := spaced
      obtain ⟨body, ended⟩ := List.getLast?_eq_some_iff.mp blank
      calc squeeze (front ++ ((number before value after).written width).toList)
        _ = squeeze (front ++ body ++ ' ' ::
              (List.replicate (width - (toString value).length) ' ' ++
                ((toString value).toList ++ (after.written width).toList))) := by
          rw [toList_written_number, ended]
          simp only [List.append_assoc, List.cons_append, List.nil_append]
        _ = squeeze (front ++ before.toList ++ (toString value).toList ++
              (after.written width).toList) := by
          rw [squeeze_blanks, ended]
          simp only [List.append_assoc, List.cons_append, List.nil_append]
        _ = squeeze (front ++ ((number before value after).written 0).toList) := by
          rw [ih spaced, toList_number]
          simp only [List.append_assoc]

theorem isChain_written (spaced : wording.Spaced) :
    (wording.written 0).toList.IsChain Single := by
  induction wording with
  | words last => exact spaced
  | number before value after ih =>
      obtain ⟨single, -, spaced⟩ := spaced
      have solid : ∀ c ∈ (toString value).toList, c ≠ ' ' := by
        rintro _ mem rfl
        exact absurd (isNumeral_of_mem_toString mem) (by decide)
      rw [toList_number]
      -- The words on both sides may have blanks at the number, but the number has none.
      refine single.append ((isChain_single_of_solid solid).append (ih spaced) ?_) ?_
      · intro c last _ _
        exact single_of_ne_left (solid c (List.mem_of_getLast? last))
      · intro _ _ c head
        refine single_of_ne_right ?_
        rintro rfl
        exact absurd (head_of_number _ _ _ head) (by decide)

/-- However wide the numbers were written, the squeezed text has them as they are. -/
theorem squeezed_written (spaced : wording.Spaced) (width : Nat) :
    squeezed (wording.written width) = wording.written 0 :=
  calc squeezed (wording.written width)
    _ = squeezed (wording.written 0) :=
      congrArg String.ofList (squeeze_append_written spaced [] width)
    _ = wording.written 0 := squeezed_eq_self (isChain_written spaced)

end Spaced

end Wording

end StaticOpus.Text
