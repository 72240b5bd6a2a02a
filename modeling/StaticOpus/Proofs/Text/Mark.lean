import Mathlib.Data.List.Infix
import StaticOpus.Text.Mark

/-!
# Where a mark stands in a text

A mark whose last character stands nowhere else in it never overlaps itself. A text is then free of
the mark, or it is cut where the mark stands right after a part that is free of it.
-/

namespace StaticOpus.Text

variable {mark text front rest tail : List Char} {first last : Char}

theorem after?_cons_of_later (other : ¬ mark <+: first :: text) :
    after? mark (first :: text) = after? mark text := by
  have refused : mark.isPrefixOf? (first :: text) = none := by
    rw [Option.eq_none_iff_forall_ne_some]
    intro rest found
    exact other ⟨rest, List.isPrefixOf?_eq_some_iff_append_eq.mp found⟩
  rw [after?, refused]

theorem before_cons_of_later (other : ¬ mark <+: first :: text) :
    before mark (first :: text) = first :: before mark text := by
  rw [before, if_neg fun found => other (List.isPrefixOf_iff_prefix.mp found)]

theorem after?_append_self (nonempty : mark ≠ []) : after? mark (mark ++ rest) = some rest := by
  have found : mark.isPrefixOf? (mark ++ rest) = some rest :=
    List.isPrefixOf?_eq_some_iff_append_eq.mpr rfl
  obtain ⟨first, body, rfl⟩ := List.exists_cons_of_ne_nil nonempty
  rw [List.cons_append] at found ⊢
  rw [after?, found]

theorem before_append_self (nonempty : mark ≠ []) : before mark (mark ++ rest) = [] := by
  have found : mark.isPrefixOf (mark ++ rest) = true :=
    List.isPrefixOf_iff_prefix.mpr (List.prefix_append mark rest)
  obtain ⟨first, body, rfl⟩ := List.exists_cons_of_ne_nil nonempty
  rw [List.cons_append] at found ⊢
  rw [before, if_pos found]

theorem after?_of_unmarked (free : ¬ mark <:+: text) : after? mark text = none := by
  induction text with
  | nil => rfl
  | cons first text ih =>
      rw [List.infix_cons_iff, not_or] at free
      rw [after?_cons_of_later free.1, ih free.2]

theorem before_of_unmarked (free : ¬ mark <:+: text) : before mark text = text := by
  induction text with
  | nil => rfl
  | cons first text ih =>
      rw [List.infix_cons_iff, not_or] at free
      rw [before_cons_of_later free.1, ih free.2]

/-- A text with a mark in it has a first one. -/
theorem exists_cut (nonempty : mark ≠ []) (found : mark <:+: text) :
    ∃ front rest, ¬ mark <:+: front ∧ text = front ++ (mark ++ rest) := by
  induction text with
  | nil => exact absurd (List.infix_nil.mp found) nonempty
  | cons first text ih =>
      by_cases here : mark <+: first :: text
      · obtain ⟨rest, cut⟩ := here
        exact ⟨[], rest, fun inside => nonempty (List.infix_nil.mp inside), cut.symm⟩
      · obtain ⟨front, rest, free, rfl⟩ := ih ((List.infix_cons_iff.mp found).resolve_left here)
        refine ⟨first :: front, rest, ?_, rfl⟩
        rw [List.infix_cons_iff, not_or]
        exact ⟨fun begins => here (begins.trans (List.prefix_append _ _)), free⟩

/-- A mark ends in a character that stands nowhere else in it. -/
def ClosedBy (last : Char) (mark : List Char) : Prop :=
  ∃ body, mark = body ++ [last] ∧ last ∉ body

namespace ClosedBy

variable (closed : ClosedBy last mark)

include closed

theorem ne_nil : mark ≠ [] := by
  obtain ⟨body, rfl, -⟩ := closed
  exact List.append_ne_nil_of_right_ne_nil body (List.cons_ne_nil last [])

theorem mem : last ∈ mark := by
  obtain ⟨body, rfl, -⟩ := closed
  exact List.mem_append_right body List.mem_cons_self

/-- A mark that begins inside a text and does not end in it leaves its last character behind. -/
theorem mem_border {border : List Char} (unfinished : ¬ mark <:+: front)
    (whole : front ++ border = mark) : last ∈ border := by
  obtain ⟨body, cut, -⟩ := closed
  rcases List.append_eq_append_iff.mp (whole.trans cut) with ⟨between, -, rfl⟩ | ⟨inner, -, ends⟩
  · exact List.mem_append_right between List.mem_cons_self
  · rcases List.singleton_eq_append_iff.mp ends with ⟨-, rfl⟩ | ⟨-, rfl⟩
    · exact List.mem_cons_self
    · rw [List.append_nil] at whole
      exact absurd (whole ▸ List.infix_refl front) unfinished

/-- A mark does not begin in a part free of it that is right before it. -/
theorem begins_later (free : ¬ mark <:+: front) (inside : front ≠ []) :
    ¬ mark <+: front ++ (mark ++ rest) := by
  intro early
  rcases List.prefix_or_prefix_of_prefix early (List.prefix_append front _) with within | overlap
  · exact free within.isInfix
  · -- what of the mark lies past the front would be in its body, and ends in its last character
    obtain ⟨border, whole⟩ := overlap
    have ends : last ∈ border := closed.mem_border free whole
    have again : border <+: mark ++ rest :=
      (List.prefix_append_right_inj front).mp (whole.symm ▸ early)
    have shorter : border.length < mark.length := by
      have := List.length_pos_iff.mpr inside
      rw [← whole, List.length_append]
      omega
    have begins : border <+: mark :=
      List.prefix_of_prefix_length_le again (List.prefix_append mark rest) shorter.le
    obtain ⟨body, rfl, once⟩ := closed
    rcases List.prefix_concat_iff.mp begins with same | within
    · rw [same] at shorter
      exact lt_irrefl _ shorter
    · exact once (within.subset ends)

/-- What follows the first mark. -/
theorem after?_append (free : ¬ mark <:+: front) :
    after? mark (front ++ (mark ++ rest)) = some rest := by
  induction front with
  | nil => exact after?_append_self closed.ne_nil
  | cons first front ih =>
      have later : ¬ mark <+: first :: front ++ (mark ++ rest) :=
        closed.begins_later free (List.cons_ne_nil first front)
      rw [List.infix_cons_iff, not_or] at free
      exact (after?_cons_of_later later).trans (ih free.2)

/-- What comes before the first mark. -/
theorem before_append (free : ¬ mark <:+: front) :
    before mark (front ++ (mark ++ rest)) = front := by
  induction front with
  | nil => exact before_append_self closed.ne_nil
  | cons first front ih =>
      have later : ¬ mark <+: first :: front ++ (mark ++ rest) :=
        closed.begins_later free (List.cons_ne_nil first front)
      rw [List.infix_cons_iff, not_or] at free
      exact (before_cons_of_later later).trans (congrArg (first :: ·) (ih free.2))

theorem after?_eq_none_iff : after? mark text = none ↔ ¬ mark <:+: text := by
  constructor
  · intro missed found
    obtain ⟨front, rest, free, rfl⟩ := exists_cut closed.ne_nil found
    rw [closed.after?_append free] at missed
    cases missed
  · exact after?_of_unmarked

section Tail

/-! What a text ends in does not matter to a mark whose last character is not there. -/

variable (foreign : last ∉ tail)

include foreign

theorem infix_append_iff : mark <:+: text ++ tail ↔ mark <:+: text := by
  constructor
  · intro found
    rcases List.infix_append_iff.mp found with within | past | ⟨start, border, whole, ends, begins⟩
    · exact within
    · exact absurd (past.subset closed.mem) foreign
    · by_contra free
      have unfinished : ¬ mark <:+: start := fun inside => free (inside.trans ends.isInfix)
      exact foreign (begins.subset (closed.mem_border unfinished whole.symm))
  · intro found
    exact found.trans (List.prefix_append text tail).isInfix

theorem after?_append_tail : after? mark (text ++ tail) = (after? mark text).map (· ++ tail) := by
  by_cases found : mark <:+: text
  · obtain ⟨front, rest, free, rfl⟩ := exists_cut closed.ne_nil found
    rw [List.append_assoc, List.append_assoc, closed.after?_append free, closed.after?_append free]
    rfl
  · rw [after?_of_unmarked found,
      after?_of_unmarked ((closed.infix_append_iff foreign).not.mpr found)]
    rfl

theorem before_append_tail : before mark (text ++ tail) = before mark text ∨
    before mark (text ++ tail) = before mark text ++ tail := by
  by_cases found : mark <:+: text
  · obtain ⟨front, rest, free, rfl⟩ := exists_cut closed.ne_nil found
    rw [List.append_assoc, List.append_assoc, closed.before_append free, closed.before_append free]
    exact Or.inl rfl
  · rw [before_of_unmarked found,
      before_of_unmarked ((closed.infix_append_iff foreign).not.mpr found)]
    exact Or.inr rfl

end Tail

end ClosedBy

end StaticOpus.Text
