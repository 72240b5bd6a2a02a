import StaticOpus.Mode
import StaticOpus.Text.Record

/-!
# Faults

What can be wrong with decoder storage, with the codec behind it, or with a request for a decoder.
A fault is read as a sentence or as a record; the sentence is never padded or cut.
-/

namespace StaticOpus

/-- Why a check or the set-up of a decoder was refused. -/
inductive Fault where
  /-- The codec needs more bytes than the storage holds. -/
  | tooSmall (mode : Mode) (required available : Nat)
  /-- The storage of this build has no room for the mode. -/
  | unsupported (mode : Mode)
  /-- No mode has this channel count. -/
  | invalidChannels (channels : UInt8)
  /-- The codec reported a size that is not positive. -/
  | invalidSize (reported : Int32)
  /-- The codec is not the release that the sizes were measured on. -/
  | versionMismatch
  /-- The codec refused to set the decoder up. -/
  | initFailed (code : Int32)
  deriving DecidableEq

/-- The ways to ask for the text of a value. -/
inductive Style where
  /-- As a sentence. -/
  | sentence
  /-- As a sentence, asked to end at the given column. -/
  | sentenceRight (width : Nat)
  /-- As a sentence, asked to stand in the middle of the given columns. -/
  | sentenceCentred (width : Nat)
  /-- As a sentence, asked to stop at the given length. -/
  | sentenceCut (length : Nat)
  /-- As a record in some layout. -/
  | record (layout : Text.Layout)
  deriving DecidableEq

namespace Fault

/-- The name of the kind of fault. -/
def kind : Fault → String
  | tooSmall .. => "TooSmall"
  | unsupported _ => "Unsupported"
  | invalidChannels _ => "InvalidChannels"
  | invalidSize _ => "InvalidSize"
  | versionMismatch => "VersionMismatch"
  | initFailed _ => "Init"

/-- The fault as a sentence. -/
def message : Fault → String
  | tooSmall mode required available =>
    mode.word ++ " decoder needs " ++ toString required ++ " bytes but storage holds " ++
      toString available
  | unsupported mode => mode.word ++ " decoders need the `stereo` feature"
  | invalidChannels channels => "invalid channel count " ++ toString channels.toNat
  | invalidSize reported => "libopus reported invalid decoder size " ++ toString reported.toInt
  | versionMismatch => "linked libopus is not the pinned release"
  | initFailed code => "opus_decoder_init failed with code " ++ toString code.toInt

/-- The fault as a record: its kind and what it knows. -/
def record (fault : Fault) : Text.Record where
  name := fault.kind
  fields := match fault with
    | tooSmall mode required available =>
      [("mode", .word mode.name), ("required", .number required), ("available", .number available)]
    | unsupported mode => [("mode", .word mode.name)]
    | invalidChannels channels => [("channels", .number channels.toNat)]
    | invalidSize reported => [("reported", .number reported.toInt)]
    | versionMismatch => []
    | initFailed code => [("code", .number code.toInt)]
  hides := false

/-- What lies behind a fault: nothing, since a fault tells all that is known. -/
def cause? (_ : Fault) : Option Fault := none

/-- The text of a fault. A sentence is the same whatever room it is asked to take. -/
def render : Style → Fault → String
  | .sentence, fault => fault.message
  | .sentenceRight _, fault => fault.message
  | .sentenceCentred _, fault => fault.message
  | .sentenceCut _, fault => fault.message
  | .record layout, fault => fault.record.render layout

end Fault

namespace Mode

/-- The mode with the given channel count, or the fault of having none. -/
def ofChannels (channels : UInt8) : Except Fault Mode :=
  match ofChannels? channels with
  | some mode => .ok mode
  | none => .error (.invalidChannels channels)

/-- The text of a mode. It takes the room it needs, whatever room it is asked to take. -/
def render : Style → Mode → String
  | .sentence, mode => mode.word
  | .sentenceRight _, mode => mode.word
  | .sentenceCentred _, mode => mode.word
  | .sentenceCut _, mode => mode.word
  | .record _, mode => mode.name

end Mode

end StaticOpus
