/-!
# UTF-8, read strictly and leniently

Bytes are UTF-8 in whole or are refused by the strict reader. The lenient reader takes any bytes: it
reads octet by octet, and where the octets gathered so far can no longer become a character it puts
one replacement character in their place and reads the offending octet afresh.

## Implementation notes

Between octets the lenient reader holds at most one open character: how many octets it still owes,
the range the next one must lie in, and the bits gathered so far. Only the octet after the first is
restricted beyond the tail range, which rules out overlong forms, surrogates and values past the
last code point.
-/

namespace StaticOpus.Text.Utf8

/-- The bytes of a string. -/
def encode (text : String) : List UInt8 := text.toByteArray.data.toList

/-- The string with the given bytes, if they are UTF-8 in whole. -/
def decode? (bytes : List UInt8) : Option String := String.fromUTF8? ⟨bytes.toArray⟩

/-- The character that stands for octets that are not UTF-8. -/
def replacement : Char := '\uFFFD'

/-- A character whose octets have not all been read: it owes `owed` more octets after the next one,
the next one lies between `low` and `high`, and `bits` is what the octets so far stand for. -/
structure Open where
  owed : Nat
  low : UInt8
  high : UInt8
  bits : Nat

/-- The reader's state: between characters, or inside one. -/
abbrev State := Option Open

/-- Reads an octet between characters: the characters it completes and the state after it. -/
def readFirst (octet : UInt8) : List Char × State :=
  let value := octet.toNat
  if octet < 0x80 then ([Char.ofNat value], none)
  else if octet < 0xC2 then ([replacement], none)
  else if octet < 0xE0 then ([], some ⟨0, 0x80, 0xBF, value - 0xC0⟩)
  else if octet = 0xE0 then ([], some ⟨1, 0xA0, 0xBF, 0⟩)
  else if octet = 0xED then ([], some ⟨1, 0x80, 0x9F, value - 0xE0⟩)
  else if octet < 0xF0 then ([], some ⟨1, 0x80, 0xBF, value - 0xE0⟩)
  else if octet = 0xF0 then ([], some ⟨2, 0x90, 0xBF, 0⟩)
  else if octet < 0xF4 then ([], some ⟨2, 0x80, 0xBF, value - 0xF0⟩)
  else if octet = 0xF4 then ([], some ⟨2, 0x80, 0x8F, value - 0xF0⟩)
  else ([replacement], none)

/-- Reads an octet in any state. An octet that cannot go on with the open character ends it as a
replacement character and is read as the first of the next one. -/
def read (octet : UInt8) : State → List Char × State
  | none => readFirst octet
  | some pending =>
    if pending.low ≤ octet ∧ octet ≤ pending.high then
      let bits := pending.bits * 64 + (octet.toNat - 0x80)
      match pending.owed with
      | 0 => ([Char.ofNat bits], none)
      | owed + 1 => ([], some ⟨owed, 0x80, 0xBF, bits⟩)
    else
      let (chars, state) := readFirst octet
      (replacement :: chars, state)

/-- The characters of the remaining octets; an open character at the end is a replacement
character. -/
def lossyFrom : State → List UInt8 → List Char
  | none, [] => []
  | some _, [] => [replacement]
  | state, octet :: rest =>
    let (chars, state) := read octet state
    chars ++ lossyFrom state rest

/-- The characters of any bytes, with replacement characters where they are not UTF-8. -/
def lossy (bytes : List UInt8) : List Char := lossyFrom none bytes

/-- The string of any bytes, with replacement characters where they are not UTF-8. -/
def lossyString (bytes : List UInt8) : String := String.ofList (lossy bytes)

end StaticOpus.Text.Utf8
