import StaticOpus.Mode
import StaticOpus.Text.Utf8

/-!
# The codec behind the library

A codec as its caller sees it: every question takes the next reply of a stream. The replies of a
stream go in turn and the last one stays, so a codec may change its mind between two questions.
-/

namespace StaticOpus

/-- A call that reached the codec. -/
inductive Call where
  | version
  | size (channels : UInt8)
  | init (rate : Int32) (channels : UInt8)
  /-- The text for a code. -/
  | explain (code : Int32)
  deriving DecidableEq

/-- A stream of replies still to be given. -/
abbrev Replies := List Int32

namespace Replies

/-- The next reply, if there ever was one, and the stream after it: the last reply stays. -/
def next : Replies → Option Int32 × Replies
  | [] => (none, [])
  | [reply] => (some reply, [reply])
  | reply :: after :: rest => (some reply, after :: rest)

end Replies

/-- A codec: its version text, the replies it will give, and the texts it has for its codes. A text
is a terminated byte string or nothing. -/
structure Codec where
  version : Option (List UInt8) := none
  monoSizes : Replies := []
  stereoSizes : Replies := []
  initCodes : Replies := []
  texts : List (Int32 × Option (List UInt8)) := []

namespace Codec

/-- The code for success. -/
def ok : Int32 := 0

/-- The code for an argument that is out of range. -/
def badArgument : Int32 := -1

/-- The code for a refused allocation. -/
def allocationFailed : Int32 := -7

/-- The sample rates, in hertz, that a decoder can be set up for. -/
def sampleRates : List Int32 := [8000, 12000, 16000, 24000, 48000]

/-- The texts that a codec has for its codes where nothing else is said. -/
def standardTexts : List (Int32 × String) :=
  [(0, "success"), (-1, "invalid argument"), (-2, "buffer too small"), (-3, "internal error"),
    (-4, "corrupted stream"), (-5, "request not implemented"), (-6, "invalid state"),
    (-7, "memory allocation failed")]

/-- The text that a codec has for a code where nothing else is said. -/
def standardText (code : Int32) : String := (standardTexts.lookup code).getD "unknown error"

/-- The text that this codec has for a code. -/
def text (codec : Codec) (code : Int32) : Option (List UInt8) :=
  match codec.texts.lookup code with
  | some text => text
  | none => some (Text.Utf8.encode (standardText code))

/-- The sizes that are still to be reported for a mode. -/
def sizes (codec : Codec) : Mode → Replies
  | .mono => codec.monoSizes
  | .stereo => codec.stereoSizes

/-- Asks for the size of a decoder in `mode`; a codec that never says one says zero. -/
def askSize (mode : Mode) (codec : Codec) : Int32 × Codec :=
  let (reply, rest) := Replies.next (codec.sizes mode)
  (reply.getD 0, match mode with
    | .mono => { codec with monoSizes := rest }
    | .stereo => { codec with stereoSizes := rest })

/-- Asks to set a decoder up; a codec that has no code of its own accepts the known sample rates. -/
def askInit (rate : Int32) (codec : Codec) : Int32 × Codec :=
  let (reply, rest) := Replies.next codec.initCodes
  (reply.getD (if rate ∈ sampleRates then ok else badArgument), { codec with initCodes := rest })

/-- A change of some parts of a codec; a part that is not named stays as it is. -/
structure Change where
  version : Option (Option (List UInt8)) := none
  monoSizes : Option Replies := none
  stereoSizes : Option Replies := none
  initCodes : Option Replies := none
  texts : Option (List (Int32 × Option (List UInt8))) := none

/-- The codec after a change. -/
def apply (change : Change) (codec : Codec) : Codec where
  version := change.version.getD codec.version
  monoSizes := change.monoSizes.getD codec.monoSizes
  stereoSizes := change.stereoSizes.getD codec.stereoSizes
  initCodes := change.initCodes.getD codec.initCodes
  texts := change.texts.getD codec.texts

end Codec

end StaticOpus
