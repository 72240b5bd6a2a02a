/-!
# Marks in a text

A mark is a fixed text to look for. A text is cut at the first place where the mark stands.
-/

namespace StaticOpus.Text

/-- What follows the first place where the mark stands, if it stands anywhere. -/
def after? (mark : List Char) : List Char → Option (List Char)
  | [] => none
  | c :: rest =>
    match mark.isPrefixOf? (c :: rest) with
    | some tail => some tail
    | none => after? mark rest

/-- What comes before the first place where the mark stands, or all of it. -/
def before (mark : List Char) : List Char → List Char
  | [] => []
  | c :: rest => if mark.isPrefixOf (c :: rest) then [] else c :: before mark rest

end StaticOpus.Text
