import StaticOpus.Release

/-!
# Fit of a decoder in its storage

A decoder set up in storage too small for it overwrites what follows. Before that can happen the
size that the codec reports is compared with the storage of the build. Who reports the sizes is a
parameter with a state of its own, so one loop serves a fixed list of replies and a linked codec.
-/

namespace StaticOpus

namespace Fit

/-- Checks that the storage of the build can hold a decoder of `size` bytes in `mode`. -/
def check (build : Build) (mode : Mode) (size : Nat) : Checked Unit :=
  if build.supports mode then
    if size ≤ build.decoderSize then ⟨.ok (), []⟩
    else
      ⟨.error (.tooSmall mode size build.decoderSize),
        [.storageTooSmall mode size build.decoderSize]⟩
  else ⟨.error (.unsupported mode), []⟩

/-- The size that a reply stands for: only a positive reply is a size. -/
def sizeOfReply (reply : Int32) : Except Fault Nat :=
  if 0 < reply.toInt then .ok reply.toInt.toNat else .error (.invalidSize reply)

/-- Checks what one reply says about the fit of a decoder in `mode`. -/
def checkReply (build : Build) (mode : Mode) (reply : Int32) : Checked Unit :=
  match sizeOfReply reply with
  | .error fault => ⟨.error fault, []⟩
  | .ok size => check build mode size

/-- What a round of checks came to, and the state in which it left the reporter. -/
structure Round (σ : Type) where
  checked : Checked Unit
  reporter : σ

/-- Asks for the size of each mode in turn and checks it, up to the first fault. -/
def checkModes {σ : Type} (build : Build) (ask : Mode → σ → Int32 × σ) :
    List Mode → σ → Round σ
  | [], reporter => ⟨⟨.ok (), []⟩, reporter⟩
  | mode :: modes, reporter =>
    let (reply, reporter) := ask mode reporter
    match checkReply build mode reply with
    | ⟨.ok (), log⟩ =>
      let round := checkModes build ask modes reporter
      ⟨⟨round.checked.result, log ++ round.checked.log⟩, round.reporter⟩
    | ⟨.error fault, log⟩ => ⟨⟨.error fault, log⟩, reporter⟩

/-- Checks every mode that the build supports against what the reporter says. -/
def verify {σ : Type} (build : Build) (ask : Mode → σ → Int32 × σ) (reporter : σ) : Round σ :=
  checkModes build ask build.supported reporter

/-- A reporter that reads its replies off a list and notes what it was asked. -/
structure Listed where
  replies : List Int32
  asked : List Mode

namespace Listed

/-- The next reply of the list, or zero after its end. -/
def ask (mode : Mode) (listed : Listed) : Int32 × Listed :=
  match listed.replies with
  | [] => (0, ⟨[], listed.asked ++ [mode]⟩)
  | reply :: rest => (reply, ⟨rest, listed.asked ++ [mode]⟩)

end Listed

/-- Checks the build against a list of replies. -/
def verifyListed (build : Build) (replies : List Int32) : Round Listed :=
  verify build Listed.ask ⟨replies, []⟩

end Fit

end StaticOpus
