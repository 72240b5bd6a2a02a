import StaticOpus.Proofs.Text.Wording

/-!
# Records as wordings

A record that hides nothing is a wording in each of its layouts, with the numbers of its fields for
numbers. The layout on one line with padded numbers is the plain line, written wider.
-/

namespace StaticOpus.Text

/-- The wording with the given words in front. -/
def Wording.behind (front : String) : Wording → Wording
  | words last => words (front ++ last)
  | number before value after => number (front ++ before) value after

@[simp] theorem Wording.written_behind (width : Nat) (front : String) (wording : Wording) :
    (wording.behind front).written width = front ++ wording.written width := by
  cases wording with
  | words => rfl
  | number => simp only [behind, written, String.append_assoc]

/-- The value of a field and what stands after it. -/
def Field.wording (after : Wording) : Field → Wording
  | word text => after.behind text
  | number value => .number "" value after

@[simp] theorem Field.written_wording (width : Nat) (after : Wording) (field : Field) :
    (field.wording after).written width = field.render width ++ after.written width := by
  cases field with
  | word => exact Wording.written_behind width _ after
  | number => simp only [wording, render, Wording.written, String.empty_append]

theorem intercalate_cons_eq_join (separator first : String) (others : List String) :
    separator.intercalate (first :: others) =
      first ++ String.join (others.map (separator ++ ·)) := by
  induction others generalizing first with
  | nil => rw [String.intercalate_singleton, List.map_nil, String.join_nil, String.append_empty]
  | cons next others ih =>
      rw [String.intercalate_cons_cons, ih, List.map_cons, String.join_cons, String.append_assoc,
        String.append_assoc]

namespace Record

/-- Fields one after another, each between the given words. -/
def listed (before after : String) (rest : Wording) (fields : List (String × Field)) : Wording :=
  fields.foldr
    (fun field rest => (field.2.wording (rest.behind after)).behind (before ++ field.1 ++ ": ")) rest

theorem written_listed (width : Nat) (before after : String) (rest : Wording)
    (fields : List (String × Field)) :
    (listed before after rest fields).written width =
      String.join (fields.map fun field =>
        before ++ field.1 ++ ": " ++ field.2.render width ++ after) ++ rest.written width := by
  induction fields with
  | nil => rw [List.map_nil, String.join_nil, String.empty_append]; rfl
  | cons field fields ih =>
      rw [listed, List.foldr_cons, ← listed, Wording.written_behind, Field.written_wording,
        Wording.written_behind, ih, List.map_cons, String.join_cons]
      simp only [String.append_assoc]

/-- The record on one line. -/
def lineWording (record : Record) : Wording :=
  match record.fields with
  | [] => .words record.name
  | first :: others =>
    (listed "" "" (listed ", " "" (.words " \x7d") others) [first]).behind
      (record.name ++ " \x7b ")

/-- The record as a block. -/
def blockWording (record : Record) : Wording :=
  match record.fields with
  | [] => .words record.name
  | fields => (listed "    " ",\n" (.words "\x7d") fields).behind (record.name ++ " \x7b\n")

variable {record : Record} (shown : record.hides = false)

include shown

theorem renderLine_eq_written (width : Nat) :
    record.renderLine width = record.lineWording.written width := by
  obtain ⟨name, fields, hides⟩ := record
  obtain rfl : hides = false := shown
  cases fields with
  | nil => rfl
  | cons first others =>
      simp only [renderLine, items, lineWording, List.map_cons, Bool.false_eq_true,
        if_false, List.append_nil, intercalate_cons_eq_join, List.map_map, Function.comp_def,
        Wording.written_behind, written_listed, Wording.written, List.map_nil, String.join_cons,
        String.join_nil, String.append_assoc, String.empty_append, String.append_empty]

theorem renderBlock_eq_written : record.renderBlock = record.blockWording.written 0 := by
  obtain ⟨name, fields, hides⟩ := record
  obtain rfl : hides = false := shown
  cases fields with
  | nil => rfl
  | cons first others =>
      simp only [renderBlock, items, blockWording, List.map_cons, List.cons_append,
        Bool.false_eq_true, if_false, Wording.written_behind, written_listed, Wording.written,
        String.append_assoc, String.empty_append]

end Record

end StaticOpus.Text
