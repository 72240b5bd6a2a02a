import StaticOpus.Terminal

/-!
# What a stream receives

Lines reach their stream in the order in which they are printed, and no line reaches the other one.
-/

namespace StaticOpus

variable {coloured : Bool} {channel : Channel}

theorem printed_append (first later : List Line) :
    printed coloured channel (first ++ later) =
      printed coloured channel first ++ printed coloured channel later := by
  simp [printed]

@[simp] theorem printed_output_cons (text : String) (style : TextStyle) (rest : List Line) :
    printed coloured .errors (.output text style :: rest) = printed coloured .errors rest := by
  simp [printed, Line.output]

@[simp] theorem printed_errors_cons (text : String) (style : TextStyle) (rest : List Line) :
    printed false .errors (.errors text style :: rest) =
      text ++ "\n" ++ printed false .errors rest := by
  apply String.toList_inj.mp
  simp [printed, Line.errors, Line.render, Span.render]

@[simp] theorem printed_errors_output_cons (text : String) (style : TextStyle)
    (rest : List Line) :
    printed coloured .output (.errors text style :: rest) = printed coloured .output rest := by
  simp [printed, Line.errors]

@[simp] theorem printed_output_output_cons (text : String) (style : TextStyle)
    (rest : List Line) :
    printed false .output (.output text style :: rest) =
      text ++ "\n" ++ printed false .output rest := by
  apply String.toList_inj.mp
  simp [printed, Line.output, Line.render, Span.render]

@[simp] theorem printed_blank_cons (rest : List Line) :
    printed coloured .errors (.blank :: rest) = printed coloured .errors rest := by
  rw [Line.blank, printed_output_cons]

@[simp] theorem printed_nil : printed coloured channel [] = "" := rfl

/-- Each of some lines of the errors is received once, in their order. -/
theorem printed_map_errors {α : Type} (text : α → String) (style : TextStyle) (items : List α) :
    printed false .errors (items.map fun item => .errors (text item) style) =
      String.join (items.map fun item => text item ++ "\n") := by
  induction items with
  | nil => rfl
  | cons first rest ih =>
      rw [List.map_cons, printed_errors_cons, ih, List.map_cons, String.join_cons]

end StaticOpus
