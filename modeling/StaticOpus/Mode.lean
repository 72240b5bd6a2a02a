/-!
# Channel modes and builds

A decoder is set up for one or two channels. The codec keeps its decoder type private, so the room
a decoder takes is a measurement of one pinned release; a build reserves that room for one selected
mode, and a narrower decoder always fits where a wider one does.
-/

namespace StaticOpus

/-- The number of channels a decoder is set up for. -/
inductive Mode where
  | mono
  | stereo
  deriving DecidableEq

namespace Mode

/-- Every mode, narrowest first: the order in which modes are checked. -/
def all : List Mode := [mono, stereo]

/-- The channel count as the codec writes it. -/
def channels : Mode → UInt8
  | mono => 1
  | stereo => 2

/-- The mode with the given channel count. -/
def ofChannels? (channels : UInt8) : Option Mode :=
  if channels = 1 then some mono
  else if channels = 2 then some stereo
  else none

/-- The bytes a decoder in this mode takes in the pinned release of the codec. -/
def storageSize : Mode → Nat
  | mono => 17860
  | stereo => 26580

/-- The word that sentences use for the mode. -/
def word : Mode → String
  | mono => "mono"
  | stereo => "stereo"

/-- The name that records use for the mode. -/
def name : Mode → String
  | mono => "Mono"
  | stereo => "Stereo"

theorem ofChannels?_channels (mode : Mode) : ofChannels? mode.channels = some mode := by
  cases mode <;> rfl

theorem storageSize_pos (mode : Mode) : 0 < mode.storageSize := by
  cases mode <;> decide

end Mode

/-- The alignment, in bytes, that the codec asks of decoder storage. -/
def storageAlignment : Nat := 4

/-- A build of the library: the mode whose decoder its storage has exactly the room for. -/
structure Build where
  selected : Mode
  deriving DecidableEq

namespace Build

/-- The bytes that this build reserves for a decoder. -/
def decoderSize (build : Build) : Nat := build.selected.storageSize

/-- Whether the storage of this build has room for a decoder in the given mode: always for mono,
and for stereo where stereo is the selected mode. -/
def supports (build : Build) : Mode → Bool
  | .mono => true
  | .stereo => build.selected = .stereo

/-- The modes that this build supports, in checking order. -/
def supported (build : Build) : List Mode := Mode.all.filter build.supports

end Build

end StaticOpus
