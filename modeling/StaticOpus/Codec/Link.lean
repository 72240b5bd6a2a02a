import StaticOpus.Codec
import StaticOpus.Fit
import StaticOpus.Storage
import StaticOpus.Text.CString

/-!
# The linked codec

A link joins one block of decoder storage to one codec. The codec sees the storage only in the call
that sets a decoder up, and that call is made only right after the codec has said that the decoder
fits. Every call to the codec and every log entry is noted, oldest first.
-/

namespace StaticOpus

/-- A storage block joined to a codec, with the calls and log entries made so far. -/
structure Link where
  codec : Codec
  storage : Storage
  calls : List Call := []
  log : List Event := []

namespace Link

/-- A codec joined to the zeroed storage of a build. -/
def fresh (build : Build) (codec : Codec) : Link where
  codec := codec
  storage := .zeroed build.selected

/-- The link after a call has been noted. -/
def noteCall (call : Call) (link : Link) : Link := { link with calls := link.calls ++ [call] }

/-- The link after some log entries. -/
def noteEvents (events : List Event) (link : Link) : Link := { link with log := link.log ++ events }

/-- Asks for the codec's version text; a text that cannot be read is empty. -/
def version (link : Link) : String × Link :=
  ((Text.CString.read link.codec.version).getD "", link.noteCall .version)

/-- Asks for the codec's text for a code. -/
def explain (code : Int32) (link : Link) : String × Link :=
  ((Text.CString.read (link.codec.text code)).getD "Unknown error", link.noteCall (.explain code))

/-- Asks for the size of a decoder, as the codec replies it. -/
def askSize (mode : Mode) (link : Link) : Int32 × Link :=
  let (reply, codec) := link.codec.askSize mode
  (reply, { link with codec := codec }.noteCall (.size mode.channels))

/-- Asks for the size of a decoder. -/
def size (mode : Mode) (link : Link) : Except Fault Nat × Link :=
  let (reply, link) := link.askSize mode
  (Fit.sizeOfReply reply, link)

/-- Checks the release and the sizes of the codec against the build. -/
def verify (build : Build) (link : Link) : Except Fault Unit × Link :=
  let (text, link) := link.version
  match Release.check text with
  | ⟨.error fault, log⟩ => (.error fault, link.noteEvents log)
  | ⟨.ok (), log⟩ =>
    let round := Fit.verify build askSize (link.noteEvents log)
    (round.checked.result, round.reporter.noteEvents round.checked.log)

/-- A word as the codec stores it: four bytes, the lowest first. -/
def littleEndian (word : Int32) : List UInt8 :=
  let bits := word.toUInt32
  [bits.toUInt8, (bits >>> 8).toUInt8, (bits >>> 16).toUInt8, (bits >>> 24).toUInt8]

/-- What a codec stores in a decoder that it has set up: the rate and the channel count. -/
def decoderState (rate : Int32) (mode : Mode) : List UInt8 :=
  littleEndian rate ++ littleEndian (Int32.ofNat mode.channels.toNat)

/-- Hands the storage to the codec, which writes it only if its code is success. -/
def handOver (rate : Int32) (mode : Mode) (link : Link) : Int32 × Link :=
  let (code, codec) := link.codec.askInit rate
  let storage :=
    if code = Codec.ok then (link.storage.write? 0 (decoderState rate mode)).getD link.storage
    else link.storage
  (code, { link with codec := codec, storage := storage }.noteCall (.init rate mode.channels))

/-- Sets a decoder up in the storage of the link. The codec is asked first whether the decoder fits,
and a failure that the codec reports is explained in the log. -/
def init (build : Build) (rate : Int32) (mode : Mode) (link : Link) : Except Fault Unit × Link :=
  if build.supports mode then
    match link.size mode with
    | (.error fault, link) => (.error fault, link)
    | (.ok size, link) =>
      match Fit.check build mode size with
      | ⟨.error fault, log⟩ => (.error fault, link.noteEvents log)
      | ⟨.ok (), log⟩ =>
        let (code, link) := (link.noteEvents log).handOver rate mode
        if code = Codec.ok then (.ok (), link)
        else
          let (text, link) := link.explain code
          (.error (.initFailed code), link.noteEvents [.initFailed code text])
  else (.error (.unsupported mode), link)

end Link

end StaticOpus
