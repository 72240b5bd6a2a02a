import StaticOpus.Mode

/-!
# Log events

What the checks and the set-up of a decoder write to the log. An event is its cause; its level and
its named fields are read off it.
-/

namespace StaticOpus

/-- How grave an event is. -/
inductive Level where
  | error
  | warn
  deriving DecidableEq

/-- An entry of the log. -/
inductive Event where
  /-- The storage is too small for what the codec needs. -/
  | storageTooSmall (mode : Mode) (required available : Nat)
  /-- The codec's version text does not name the pinned release. -/
  | otherRelease (version pinned : String)
  /-- The codec refused to set a decoder up, and explained its code by a text. -/
  | initFailed (code : Int32) (text : String)
  deriving DecidableEq

namespace Event

/-- A failed set-up is a warning, a failed check an error. -/
def level : Event → Level
  | storageTooSmall .. => .error
  | otherRelease .. => .error
  | initFailed .. => .warn

/-- The event's own text. -/
def message : Event → String
  | storageTooSmall .. => "OpusDecoder storage too small"
  | otherRelease .. => "linked libopus is not the pinned release"
  | initFailed .. => "opus_decoder_init failed"

/-- The fields of an event in the order of their names; two of one name are in the order of their
texts. -/
def fields (event : Event) : List (String × String) :=
  match event with
  | storageTooSmall mode required available =>
    [("available", toString available), ("message", event.message),
      ("mode", toString mode.channels.toNat), ("required", toString required)]
  | otherRelease version pinned =>
    [("message", event.message), ("pinned", pinned), ("version", version)]
  | initFailed code text =>
    let messages :=
      if text < event.message then [("message", text), ("message", event.message)]
      else [("message", event.message), ("message", text)]
    ("code", toString code.toInt) :: messages

end Event

end StaticOpus
