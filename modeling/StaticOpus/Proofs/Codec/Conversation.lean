import StaticOpus.Codec.Session

/-!
# Conversations with a codec

A conversation puts calls to a codec one after the other. The codec that answers a call is the one
that the calls before it have left behind, so each call gets the answer of its own moment. A link
notes its calls but not the answers; replaying the calls to the codec recovers them.

## Implementation notes

The codec is asked for sizes by channel count. A count that no mode has is answered by zero, and
the codec stays as it is.
-/

namespace StaticOpus

namespace Codec

/-- What a codec gives back for a call. -/
inductive Response where
  | text (bytes : Option (List UInt8))
  | number (value : Int32)
  deriving DecidableEq

/-- The response to a call, and the codec after it. -/
def respond : Call → Codec → Response × Codec
  | .version, codec => (.text codec.version, codec)
  | .size channels, codec =>
    match Mode.ofChannels? channels with
    | some mode => (.number (codec.askSize mode).1, (codec.askSize mode).2)
    | none => (.number 0, codec)
  | .init rate _, codec => (.number (codec.askInit rate).1, (codec.askInit rate).2)
  | .explain code, codec => (.text (codec.text code), codec)

/-- A call with the response to it. -/
structure Exchange where
  call : Call
  response : Response
  deriving DecidableEq

/-- The exchanges that some calls lead to, and the codec after them. -/
def converse : List Call → Codec → List Exchange × Codec
  | [], codec => ([], codec)
  | call :: rest, codec =>
    let (response, codec) := codec.respond call
    let (exchanges, codec) := converse rest codec
    (⟨call, response⟩ :: exchanges, codec)

theorem converse_cons (call : Call) (rest : List Call) (codec : Codec) :
    (codec.converse (call :: rest)).1 =
      ⟨call, (codec.respond call).1⟩ :: ((codec.respond call).2.converse rest).1 := rfl

/-- Every call of a conversation is answered, in its place. -/
theorem converse_calls (calls : List Call) (codec : Codec) :
    (codec.converse calls).1.map (·.call) = calls := by
  induction calls generalizing codec with
  | nil => rfl
  | cons call rest ih => simp [converse, ih]

theorem call_mem_of_mem_converse {calls : List Call} {codec : Codec} {exchange : Exchange}
    (h : exchange ∈ (codec.converse calls).1) : exchange.call ∈ calls := by
  rw [← converse_calls calls codec]
  exact List.mem_map_of_mem h

/-- A conversation can be taken up again where it was left. -/
theorem converse_append (first second : List Call) (codec : Codec) :
    (codec.converse (first ++ second)).2 = ((codec.converse first).2.converse second).2 := by
  induction first generalizing codec with
  | nil => rfl
  | cons call rest ih => exact ih (codec.respond call).2

@[simp] theorem respond_size (mode : Mode) (codec : Codec) :
    codec.respond (.size mode.channels) =
      (.number (codec.askSize mode).1, (codec.askSize mode).2) := by
  simp only [respond, Mode.ofChannels?_channels]

@[simp] theorem respond_init (rate : Int32) (channels : UInt8) (codec : Codec) :
    codec.respond (.init rate channels) =
      (.number (codec.askInit rate).1, (codec.askInit rate).2) := rfl

end Codec

namespace Link

@[simp] theorem noteEvents_nil (link : Link) : link.noteEvents [] = link := by
  simp [noteEvents]

/-- The call for the size of a decoder in a mode. -/
def sizeCall (mode : Mode) : Call := .size mode.channels

/-- The link has become `after` by nothing but these calls: it has noted them, and its codec has
answered them and no others. -/
structure Conversed (link : Link) (calls : List Call) (after : Link) : Prop where
  calls_eq : after.calls = link.calls ++ calls
  codec_eq : after.codec = (link.codec.converse calls).2

namespace Conversed

variable {link middle after : Link} {calls more : List Call}

theorem refl (link : Link) : Conversed link [] link :=
  ⟨(List.append_nil _).symm, rfl⟩

theorem trans (first : Conversed link calls middle) (second : Conversed middle more after) :
    Conversed link (calls ++ more) after where
  calls_eq := by rw [second.calls_eq, first.calls_eq, List.append_assoc]
  codec_eq := by rw [second.codec_eq, first.codec_eq, Codec.converse_append]

/-- The log is no part of the conversation. -/
theorem noteEvents (h : Conversed link calls after) (log : List Event) :
    Conversed link calls (after.noteEvents log) :=
  ⟨h.calls_eq, h.codec_eq⟩

end Conversed

section Operations

variable (link : Link)

theorem conversed_version : Conversed link [.version] link.version.2 := ⟨rfl, rfl⟩

theorem conversed_explain (code : Int32) : Conversed link [.explain code] (link.explain code).2 :=
  ⟨rfl, rfl⟩

theorem conversed_askSize (mode : Mode) :
    Conversed link [sizeCall mode] (link.askSize mode).2 where
  calls_eq := rfl
  codec_eq := by simp only [askSize, noteCall, Codec.converse, sizeCall, Codec.respond_size]

theorem conversed_handOver (rate : Int32) (mode : Mode) :
    Conversed link [.init rate mode.channels] (link.handOver rate mode).2 := ⟨rfl, rfl⟩

@[simp] theorem codec_askSize (mode : Mode) :
    (link.askSize mode).2.codec = (link.codec.askSize mode).2 := rfl

end Operations

end Link

end StaticOpus
