/-!
# Printed lines

A program prints whole lines to one of two streams. A line is made of spans, each of one style.
Styles are shown by escape sequences, or not at all: what is printed is the same text either way.
-/

namespace StaticOpus

/-- A colour of the terminal. -/
inductive Colour where
  | red
  | green
  | cyan
  deriving DecidableEq

/-- How a span looks. -/
structure TextStyle where
  colour : Option Colour := none
  bold : Bool := false
  dimmed : Bool := false
  deriving DecidableEq

namespace TextStyle

/-- The look of text that asks for none. -/
def plain : TextStyle := {}

/-- The terminal's number for a colour. -/
def code : Colour → String
  | .red => "31"
  | .green => "32"
  | .cyan => "36"

/-- The terminal's numbers for a style: weight first, colour last. -/
def codes (style : TextStyle) : List String :=
  (if style.bold then ["1"] else []) ++ (if style.dimmed then ["2"] else []) ++
    (style.colour.map code).toList

/-- The sequence that switches a style on. -/
def start (style : TextStyle) : List Char :=
  "\x1b[".toList ++ (String.intercalate ";" style.codes).toList ++ ['m']

/-- The sequence that switches every style off. -/
def stop : List Char := ['\x1b', '[', '0', 'm']

/-- The text with `sequence` after every place where it switches styles off itself. -/
def resume (sequence : List Char) : List Char → List Char
  | '\x1b' :: '[' :: '0' :: 'm' :: rest => stop ++ sequence ++ resume sequence rest
  | c :: rest => c :: resume sequence rest
  | [] => []

end TextStyle

/-- A stretch of text in one style. -/
structure Span where
  style : TextStyle
  text : String

namespace Span

/-- The characters that show a span. A styled span is switched off at its end, and switched on again
wherever its own text switches it off. -/
def render (coloured : Bool) (span : Span) : List Char :=
  if coloured ∧ span.style ≠ .plain then
    span.style.start ++ TextStyle.resume span.style.start span.text.toList ++ TextStyle.stop
  else span.text.toList

end Span

/-- The streams that a program prints to. -/
inductive Channel where
  | output
  | errors
  deriving DecidableEq

/-- A printed line. -/
structure Line where
  channel : Channel
  spans : List Span

namespace Line

/-- A line of the output, in one style. -/
def output (text : String) (style : TextStyle) : Line := ⟨.output, [⟨style, text⟩]⟩

/-- A line of the errors, in one style. -/
def errors (text : String) (style : TextStyle) : Line := ⟨.errors, [⟨style, text⟩]⟩

/-- An empty line of the output. -/
def blank : Line := output "" .plain

/-- The characters that show a line, with the end of the line. -/
def render (coloured : Bool) (line : Line) : List Char :=
  line.spans.flatMap (Span.render coloured) ++ ['\n']

end Line

/-- What a stream received of some printed lines. -/
def printed (coloured : Bool) (channel : Channel) (lines : List Line) : String :=
  String.ofList ((lines.filter (·.channel = channel)).flatMap (Line.render coloured))

end StaticOpus
