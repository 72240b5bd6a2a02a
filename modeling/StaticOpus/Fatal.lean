import StaticOpus.Text.CString

/-!
# Fatal errors of the codec

A codec that finds itself broken says why and where, and nothing can go on after that. The message
survives a text that is missing or unreadable.
-/

namespace StaticOpus.Fatal

/-- A text of the codec, or what stands in for it. -/
def shown (text : Option (List UInt8)) : String :=
  match Text.CString.read text with
  | .null => "<null>"
  | .invalid => "<invalid utf-8>"
  | .text text => text

/-- The message that ends the program: what failed, in which file, on which line. -/
def message (reason file : Option (List UInt8)) (line : Int32) : String :=
  "celt_fatal: " ++ shown reason ++ ": " ++ shown file ++ ": " ++ toString line.toInt

end StaticOpus.Fatal
