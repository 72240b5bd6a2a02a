/-!
# Records written as text

A record is a name with named fields. It is written on one line, on one line with every number
padded to a width, or as a block with one field a line. A record may leave some of its contents
unsaid; two dots stand for them after the last field.
-/

namespace StaticOpus.Text

/-- A field's value as a record shows it: a bare word, or a number, which alone can be padded. -/
inductive Field where
  | word (text : String)
  | number (value : Int)
  deriving DecidableEq

/-- A name with named fields; `hides` tells that more is there than the fields show. -/
structure Record where
  name : String
  fields : List (String × Field)
  hides : Bool

/-- The ways to write a record. -/
inductive Layout where
  /-- On one line. -/
  | line
  /-- On one line, every number right-aligned in the given width. -/
  | padded (width : Nat)
  /-- One field a line, each indented by four blanks. -/
  | block
  deriving DecidableEq

/-- The text moved right by blanks until it is as wide as `width`. -/
def alignRight (width : Nat) (text : String) : String :=
  String.ofList (List.replicate (width - text.length) ' ') ++ text

namespace Field

/-- A field's value with numbers right-aligned in `width`. -/
def render (width : Nat) : Field → String
  | word text => text
  | number value => alignRight width (toString value)

end Field

namespace Record

/-- The fields of a record, each as `name: value`, with two dots for what it hides. -/
def items (width : Nat) (record : Record) : List String :=
  record.fields.map (fun field => field.1 ++ ": " ++ field.2.render width) ++
    if record.hides then [".."] else []

/-- The record on one line, with numbers right-aligned in `width`. A record with nothing to list is
its bare name. -/
def renderLine (width : Nat) (record : Record) : String :=
  match record.items width with
  | [] => record.name
  | items => record.name ++ " \x7b " ++ String.intercalate ", " items ++ " \x7d"

/-- The record as a block: every field's line ends in a comma, the line of the two dots does not. -/
def renderBlock (record : Record) : String :=
  match record.items 0 with
  | [] => record.name
  | _ =>
    record.name ++ " \x7b\n" ++
      String.join (record.fields.map fun field =>
        "    " ++ field.1 ++ ": " ++ field.2.render 0 ++ ",\n") ++
      (if record.hides then "    ..\n" else "") ++ "\x7d"

/-- The record in the given layout. -/
def render : Layout → Record → String
  | .line, record => record.renderLine 0
  | .padded width, record => record.renderLine width
  | .block, record => record.renderBlock

end Record

end StaticOpus.Text
