import Mathlib.Data.List.Destutter

/-!
# Runs of blanks

A text is squeezed by keeping one blank of each run. Behind a blank, more blanks make no difference
to the squeezed text.
-/

namespace StaticOpus.Text

/-- Whether two neighbours are not both blanks. -/
def Single (left right : Char) : Prop := ¬ (left = ' ' ∧ right = ' ')

instance : DecidableRel Single := fun _ _ => inferInstanceAs (Decidable (¬ _))

/-- The characters with every run of blanks collapsed to one blank. -/
def squeeze (chars : List Char) : List Char := chars.destutter Single

/-- The text with every run of blanks collapsed to one blank. -/
def squeezed (text : String) : String := String.ofList (squeeze text.toList)

theorem single_of_ne_left {left right : Char} (solid : left ≠ ' ') : Single left right :=
  fun both => solid both.1

theorem single_of_ne_right {left right : Char} (solid : right ≠ ' ') : Single left right :=
  fun both => solid both.2

theorem isChain_single_of_solid {chars : List Char} (solid : ∀ c ∈ chars, c ≠ ' ') :
    chars.IsChain Single :=
  (List.pairwise_of_forall_mem_list fun _ mem _ _ => single_of_ne_left (solid _ mem)).isChain

theorem squeeze_pair (front rest : List Char) :
    squeeze (front ++ ' ' :: ' ' :: rest) = squeeze (front ++ ' ' :: rest) := by
  have repeated : ¬ Single ' ' ' ' := not_not_intro ⟨rfl, rfl⟩
  -- The induction is on what lies before the pair, from whichever character was kept last.
  have after (kept : Char) (front : List Char) :
      (front ++ ' ' :: ' ' :: rest).destutter' Single kept =
        (front ++ ' ' :: rest).destutter' Single kept := by
    induction front generalizing kept with
    | nil =>
        by_cases single : Single kept ' '
        · rw [List.nil_append, List.destutter'_cons_pos _ single,
            List.destutter'_cons_neg _ repeated, List.nil_append, List.destutter'_cons_pos _ single]
        · rw [List.nil_append, List.destutter'_cons_neg _ single, List.nil_append]
    | cons next front ih =>
        by_cases single : Single kept next
        · rw [List.cons_append, List.destutter'_cons_pos _ single, ih, List.cons_append,
            List.destutter'_cons_pos _ single]
        · rw [List.cons_append, List.destutter'_cons_neg _ single, ih, List.cons_append,
            List.destutter'_cons_neg _ single]
  cases front with
  | nil => exact List.destutter'_cons_neg _ repeated
  | cons first front => exact after first front

/-- Blanks that follow a blank do not show in the squeezed text. -/
theorem squeeze_blanks (front rest : List Char) (count : Nat) :
    squeeze (front ++ ' ' :: (List.replicate count ' ' ++ rest)) =
      squeeze (front ++ ' ' :: rest) := by
  induction count with
  | zero => rfl
  | succ count ih => rw [List.replicate_succ, List.cons_append, squeeze_pair, ih]

example : squeezed "required:    26580, available: -1" = "required: 26580, available: -1" := by
  decide

theorem squeezed_eq_self {text : String} (chain : text.toList.IsChain Single) :
    squeezed text = text := by
  rw [squeezed, squeeze, List.destutter_of_isChain _ _ chain, String.ofList_toList]

end StaticOpus.Text
