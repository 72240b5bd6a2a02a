import StaticOpus.Text.Utf8

/-!
# Terminated byte strings

A text that crosses into the codec's memory is a run of bytes that ends before its first zero byte,
or no text at all. It is read as UTF-8 in whole or not at all.
-/

namespace StaticOpus.Text

/-- What reading a terminated byte string came to. -/
inductive Reading where
  /-- There was no string. -/
  | null
  /-- The bytes before the terminator are not UTF-8. -/
  | invalid
  | text (text : String)
  deriving DecidableEq

namespace Reading

/-- The text that was read, or a text to stand in for it. -/
def getD : Reading → String → String
  | text read, _ => read
  | null, fallback => fallback
  | invalid, fallback => fallback

end Reading

namespace CString

/-- The bytes before the terminator: a zero byte, or the end of what was given. -/
def content (bytes : List UInt8) : List UInt8 := bytes.takeWhile (· ≠ 0)

/-- Reads a terminated byte string, if there is one. -/
def read : Option (List UInt8) → Reading
  | none => .null
  | some bytes =>
    match Utf8.decode? (content bytes) with
    | none => .invalid
    | some text => .text text

end CString

end StaticOpus.Text
