import StaticOpus.Proofs.Terminal

/-!
# What a terminal displays of styled lines

A terminal takes the style sequences out of a text and displays all else, each character in the
styles that are switched on where it stands. A line whose own text holds no escape character is
displayed as just that text, in the styles of its spans, and none is left on after it.

## Implementation notes

A style is known by the numbers of its sequence. The sequence with the number zero, or with none,
switches every style off. A reader that has met a sequence passes over the characters of it that are
still to come, so that it goes through a text one character at a time.
-/

namespace StaticOpus

/-- A displayed character, in the styles that are switched on. -/
structure Glyph where
  char : Char
  styles : List String
  deriving DecidableEq

/-- The glyphs of a text all of which is in the same styles. -/
def glyphs (styles : List String) (text : String) : List Glyph := text.toList.map (⟨·, styles⟩)

theorem glyphs_append (styles : List String) (first second : String) :
    glyphs styles (first ++ second) = glyphs styles first ++ glyphs styles second := by
  simp [glyphs]

theorem map_char_glyphs (styles : List String) (text : String) :
    (glyphs styles text).map Glyph.char = text.toList := by
  rw [glyphs, List.map_map]
  exact List.map_id _

namespace Terminal

/-- Whether the numbers of a style sequence are written with the character. -/
def isNumbering (c : Char) : Bool := c.isDigit || c = ';'

/-- The numbers of the style sequence that a text begins with. -/
def sequence? : List Char → Option String
  | '\x1b' :: '[' :: rest =>
    if (rest.dropWhile isNumbering).head? = some 'm' then
      some (String.ofList (rest.takeWhile isNumbering))
    else none
  | _ => none

/-- The styles that are on after a sequence with the given numbers. -/
def switch (styles : List String) (numbers : String) : List String :=
  if numbers = "0" ∨ numbers = "" then [] else styles ++ [numbers]

/-- What is displayed of a text whose first `skip` characters are passed over, where some styles are
on, and the styles that are on after it. -/
def displayFrom (styles : List String) : Nat → List Char → List Glyph × List String
  | _, [] => ([], styles)
  | skip + 1, _ :: rest => displayFrom styles skip rest
  | 0, c :: rest =>
    match sequence? (c :: rest) with
    | some numbers => displayFrom (switch styles numbers) (numbers.length + 2) rest
    | none =>
      let (shown, after) := displayFrom styles 0 rest
      (⟨c, styles⟩ :: shown, after)

/-- What is displayed of a text where some styles are on, and the styles that are on after it. -/
def display (styles : List String) (text : List Char) : List Glyph × List String :=
  displayFrom styles 0 text

/-- The text without its style sequences. -/
def unstyled (text : String) : String :=
  String.ofList ((display [] text.toList).1.map Glyph.char)

example : unstyled "\x1b[1;31m3 failed\x1b[0m: m" = "3 failed: m" := by decide

/-- Whether a text holds no escape character, so that no sequence begins in it. -/
def IsLiteral (text : String) : Prop := '\x1b' ∉ text.toList

instance (text : String) : Decidable (IsLiteral text) := inferInstanceAs (Decidable (¬ _))

theorem isLiteral_append {first second : String} :
    IsLiteral (first ++ second) ↔ IsLiteral first ∧ IsLiteral second := by
  simp [IsLiteral]

/-! ## Reading one span -/

section Spans

variable {styles : List String}

theorem sequence?_of_ne {c : Char} (other : c ≠ '\x1b') (rest : List Char) :
    sequence? (c :: rest) = none := by
  unfold sequence?
  split
  · next same => exact absurd (List.cons.inj same).1 other
  · rfl

theorem sequence?_of_numbering {numbers : List Char}
    (numbering : ∀ c ∈ numbers, isNumbering c = true) (rest : List Char) :
    sequence? ('\x1b' :: '[' :: (numbers ++ 'm' :: rest)) = some (String.ofList numbers) := by
  have ends : isNumbering 'm' = false := by decide
  rw [sequence?, List.dropWhile_append_of_pos numbering, List.takeWhile_append_of_pos numbering,
    List.dropWhile_cons_of_neg (by simp [ends]), List.takeWhile_cons_of_neg (by simp [ends])]
  simp

theorem displayFrom_skip (front rest : List Char) :
    displayFrom styles front.length (front ++ rest) = display styles rest := by
  induction front with
  | nil => rfl
  | cons c front ih => exact ih

/-- A sequence is taken out and switches styles. -/
theorem display_sequence {numbers : List Char} (numbering : ∀ c ∈ numbers, isNumbering c = true)
    (rest : List Char) :
    display styles ('\x1b' :: '[' :: (numbers ++ 'm' :: rest)) =
      display (switch styles (String.ofList numbers)) rest := by
  have skip : displayFrom (switch styles (String.ofList numbers)) _ _ = _ :=
    displayFrom_skip ('[' :: (numbers ++ ['m'])) rest
  rw [display, displayFrom, sequence?_of_numbering numbering]
  simpa using skip

theorem display_cons {c : Char} (other : c ≠ '\x1b') (rest : List Char) :
    display styles (c :: rest) =
      (⟨c, styles⟩ :: (display styles rest).1, (display styles rest).2) := by
  rw [display, displayFrom, sequence?_of_ne other]
  rfl

/-- A text without escape characters is displayed as it is. -/
theorem display_append {text : String} (literal : IsLiteral text) (rest : List Char) :
    display styles (text.toList ++ rest) =
      (glyphs styles text ++ (display styles rest).1, (display styles rest).2) := by
  unfold IsLiteral at literal
  unfold glyphs
  generalize text.toList = chars at literal ⊢
  induction chars with
  | nil => rfl
  | cons c chars ih =>
      rw [List.mem_cons, not_or] at literal
      rw [List.cons_append, display_cons (Ne.symm literal.1), ih literal.2, List.map_cons,
        List.cons_append]

end Spans

end Terminal

namespace TextStyle

/-- The styles that are on in a span of this style. -/
def shown (style : TextStyle) : List String :=
  if style = .plain then [] else [String.intercalate ";" style.codes]

theorem isNumbering_of_mem_codes (style : TextStyle) :
    ∀ c ∈ (String.intercalate ";" style.codes).toList, Terminal.isNumbering c = true := by
  rw [← List.all_eq_true]
  rcases style with ⟨_ | _ | _ | _, _ | _, _ | _⟩ <;> decide

theorem switch_codes {style : TextStyle} (styled : style ≠ .plain) :
    Terminal.switch [] (String.intercalate ";" style.codes) = style.shown := by
  rw [shown, if_neg styled, Terminal.switch, if_neg, List.nil_append]
  revert styled
  rcases style with ⟨_ | _ | _ | _, _ | _, _ | _⟩ <;> decide

theorem resume_of_literal (sequence : List Char) {text : String}
    (literal : Terminal.IsLiteral text) : resume sequence text.toList = text.toList := by
  unfold Terminal.IsLiteral at literal
  generalize text.toList = chars at literal ⊢
  induction chars with
  | nil => rfl
  | cons c chars ih =>
      rw [List.mem_cons, not_or] at literal
      rw [resume, ih literal.2]
      rintro _ rfl
      exact absurd rfl literal.1

end TextStyle

/-- What is displayed of a span, if its text is literal. -/
def Span.glyphs (span : Span) : List Glyph := StaticOpus.glyphs span.style.shown span.text

/-- What is displayed of a line, if its spans are literal. -/
def Line.glyphs (line : Line) : List Glyph :=
  line.spans.flatMap Span.glyphs ++ StaticOpus.glyphs [] "\n"

theorem Line.glyphs_errors (text : String) (style : TextStyle) :
    (errors text style).glyphs =
      StaticOpus.glyphs style.shown text ++ StaticOpus.glyphs [] "\n" := by
  simp [Line.glyphs, errors, Span.glyphs]

/-- Whether the spans of a line hold no escape character. -/
def Line.IsLiteral (line : Line) : Prop := ∀ span ∈ line.spans, Terminal.IsLiteral span.text

instance (line : Line) : Decidable line.IsLiteral :=
  inferInstanceAs (Decidable (∀ span ∈ line.spans, Terminal.IsLiteral span.text))

theorem Line.isLiteral_output {text : String} {style : TextStyle} :
    (output text style).IsLiteral ↔ Terminal.IsLiteral text := by
  simp [Line.IsLiteral, output]

theorem Line.isLiteral_errors {text : String} {style : TextStyle} :
    (errors text style).IsLiteral ↔ Terminal.IsLiteral text := by
  simp [Line.IsLiteral, errors]

namespace Terminal

theorem display_span {span : Span} (literal : IsLiteral span.text) (rest : List Char) :
    display [] (span.render true ++ rest) =
      (span.glyphs ++ (display [] rest).1, (display [] rest).2) := by
  by_cases styled : span.style = .plain
  · rw [Span.render, if_neg (by simp [styled]), display_append literal, Span.glyphs,
      TextStyle.shown, if_pos styled]
  · have zero : ∀ c ∈ ['0'], isNumbering c = true := List.forall_mem_singleton.mpr (by decide)
    calc
      display [] (span.render true ++ rest)
          = display [] ('\x1b' :: '[' :: ((String.intercalate ";" span.style.codes).toList ++
              'm' :: (span.text.toList ++ '\x1b' :: '[' :: (['0'] ++ 'm' :: rest)))) := by
        rw [Span.render, if_pos ⟨rfl, styled⟩, TextStyle.resume_of_literal _ literal]
        simp [TextStyle.start, TextStyle.stop]
      _ = display span.style.shown
            (span.text.toList ++ '\x1b' :: '[' :: (['0'] ++ 'm' :: rest)) := by
        rw [display_sequence span.style.isNumbering_of_mem_codes, String.ofList_toList,
          TextStyle.switch_codes styled]
      _ = (span.glyphs ++ (display [] rest).1, (display [] rest).2) := by
        rw [display_append literal, display_sequence zero]
        rfl

/-- A line of literal text is displayed as its spans, and leaves no style on. -/
theorem display_line {line : Line} (literal : line.IsLiteral) (rest : List Char) :
    display [] (line.render true ++ rest) =
      (line.glyphs ++ (display [] rest).1, (display [] rest).2) := by
  have newline : IsLiteral "\n" := by decide
  rcases line with ⟨channel, spans⟩
  simp only [Line.IsLiteral, Line.render, Line.glyphs, List.append_assoc] at literal ⊢
  induction spans with
  | nil => exact display_append newline rest
  | cons span spans ih =>
      rw [List.forall_mem_cons] at literal
      simp only [List.flatMap_cons, List.append_assoc]
      rw [display_span literal.1, ih literal.2]

/-- So are lines one after the other. -/
theorem display_lines {lines : List Line} (literal : ∀ line ∈ lines, line.IsLiteral) :
    display [] (lines.flatMap (Line.render true)) = (lines.flatMap Line.glyphs, []) := by
  induction lines with
  | nil => rfl
  | cons line lines ih =>
      rw [List.forall_mem_cons] at literal
      rw [List.flatMap_cons, display_line literal.1, ih literal.2, List.flatMap_cons]

end Terminal

theorem Line.map_char_glyphs (line : Line) : line.glyphs.map Glyph.char = line.render false := by
  have plain (span : Span) : span.glyphs.map Glyph.char = span.render false := by
    rw [Span.glyphs, StaticOpus.map_char_glyphs, Span.render, if_neg (by simp)]
  simp only [Line.glyphs, List.map_append, List.map_flatMap, plain, StaticOpus.map_char_glyphs]
  rfl

/-- Taking the style sequences out of what a stream received of styled lines leaves what it would
have received without styles. -/
theorem unstyled_printed {channel : Channel} {lines : List Line}
    (literal : ∀ line ∈ lines, line.IsLiteral) :
    Terminal.unstyled (printed true channel lines) = printed false channel lines := by
  have literal_here : ∀ line ∈ lines.filter (·.channel = channel), line.IsLiteral :=
    fun line mem => literal line (List.mem_filter.mp mem).1
  rw [Terminal.unstyled, printed, String.toList_ofList, Terminal.display_lines literal_here,
    List.map_flatMap, printed]
  simp only [Line.map_char_glyphs]

end StaticOpus
