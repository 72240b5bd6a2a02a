import StaticOpus.Fault
import StaticOpus.Proofs.Text.Record

/-!
# Faults told by their texts

The text of a fault in any style tells the fault. A sentence and a record are wordings: the words
tell the kind and the mode, and the numbers tell the rest.
-/

namespace StaticOpus

open Text

namespace Fault

/-- The fault with zero for each of its numbers: its kind and its mode. -/
def bare : Fault → Fault
  | tooSmall mode _ _ => tooSmall mode 0 0
  | unsupported mode => unsupported mode
  | invalidChannels _ => invalidChannels 0
  | invalidSize _ => invalidSize 0
  | versionMismatch => versionMismatch
  | initFailed _ => initFailed 0

/-- The numbers of the fault in the order of its texts. -/
def numbers : Fault → List Int
  | tooSmall _ required available => [required, available]
  | unsupported _ => []
  | invalidChannels channels => [channels.toNat]
  | invalidSize reported => [reported.toInt]
  | versionMismatch => []
  | initFailed code => [code.toInt]

/-- Every fault without its numbers. -/
def bares : List Fault :=
  Mode.all.map (tooSmall · 0 0) ++ Mode.all.map unsupported ++
    [invalidChannels 0, invalidSize 0, versionMismatch, initFailed 0]

theorem bare_mem_bares (fault : Fault) : fault.bare ∈ bares := by
  rcases fault with ⟨_ | _, _, _⟩ | ⟨_ | _⟩ | _ | _ | _ | _ <;> simp only [bare] <;> decide

/-- The fault with its numbers replaced. -/
def fill : Fault → List Int → Fault
  | tooSmall mode _ _, [required, available] => tooSmall mode required.toNat available.toNat
  | invalidChannels _, [channels] => invalidChannels (UInt8.ofNat channels.toNat)
  | invalidSize _, [reported] => invalidSize (Int32.ofInt reported)
  | initFailed _, [code] => initFailed (Int32.ofInt code)
  | fault, _ => fault

theorem fill_numbers (fault : Fault) : fault.bare.fill fault.numbers = fault := by
  cases fault with
  | tooSmall | unsupported | versionMismatch => rfl
  | invalidChannels channels => exact congrArg invalidChannels UInt8.ofNat_toNat
  | invalidSize reported => exact congrArg invalidSize (Int32.ofInt_toInt reported)
  | initFailed code => exact congrArg initFailed (Int32.ofInt_toInt code)

theorem eq_of_bare_of_numbers {first second : Fault} (bares : first.bare = second.bare)
    (numbers : first.numbers = second.numbers) : first = second := by
  rw [← first.fill_numbers, bares, numbers, second.fill_numbers]

/-- The fault as a sentence. -/
def sentenceWording : Fault → Wording
  | tooSmall mode required available =>
    .number (mode.word ++ " decoder needs ") required
      (.number " bytes but storage holds " available (.words ""))
  | unsupported mode => .words (mode.word ++ " decoders need the `stereo` feature")
  | invalidChannels channels => .number "invalid channel count " channels.toNat (.words "")
  | invalidSize reported =>
    .number "libopus reported invalid decoder size " reported.toInt (.words "")
  | versionMismatch => .words "linked libopus is not the pinned release"
  | initFailed code => .number "opus_decoder_init failed with code " code.toInt (.words "")

theorem message_eq_written (fault : Fault) : fault.message = fault.sentenceWording.written 0 := by
  unfold message
  cases fault <;>
    simp only [sentenceWording, Wording.written, alignRight_zero, toString_natCast,
      String.append_empty, String.append_assoc]

/-- Whether a way to word faults tells them apart. -/
structure Tells (wording : Fault → Wording) : Prop where
  zeroed (fault : Fault) : (wording fault).zeroed = wording fault.bare
  numbers (fault : Fault) : (wording fault).numbers = fault.numbers
  legible : ∀ fault ∈ bares, (wording fault).Legible
  inj : ∀ first ∈ bares, ∀ second ∈ bares, wording first = wording second → first = second

theorem Tells.eq_of_written_eq {wording : Fault → Wording} (tells : Tells wording)
    {first second : Fault} (same : (wording first).written 0 = (wording second).written 0) :
    first = second := by
  have legible (fault : Fault) : (wording fault).Legible := by
    rw [← Wording.legible_zeroed, tells.zeroed]
    exact tells.legible _ fault.bare_mem_bares
  have wordings : wording first = wording second :=
    Wording.eq_of_written_eq (legible first) (legible second) same
  refine eq_of_bare_of_numbers (tells.inj _ first.bare_mem_bares _ second.bare_mem_bares ?_) ?_
  · rw [← tells.zeroed, ← tells.zeroed, wordings]
  · rw [← tells.numbers, ← tells.numbers, wordings]

theorem tells_sentence : Tells sentenceWording where
  zeroed fault := by cases fault <;> rfl
  numbers fault := by cases fault <;> rfl
  legible := by decide +kernel
  inj := by decide +kernel

theorem tells_line : Tells fun fault => fault.record.lineWording where
  zeroed fault := by cases fault <;> rfl
  numbers fault := by cases fault <;> rfl
  legible := by decide +kernel
  inj := by decide +kernel

theorem tells_block : Tells fun fault => fault.record.blockWording where
  zeroed fault := by cases fault <;> rfl
  numbers fault := by cases fault <;> rfl
  legible := by decide +kernel
  inj := by decide +kernel

theorem spaced_line (fault : Fault) : fault.record.lineWording.Spaced := by
  have bare : ∀ fault ∈ bares, fault.record.lineWording.Spaced := by decide +kernel
  rw [← Wording.spaced_zeroed, tells_line.zeroed]
  exact bare _ fault.bare_mem_bares

theorem render_line (fault : Fault) :
    fault.render (.record .line) = fault.record.lineWording.written 0 :=
  Record.renderLine_eq_written rfl 0

theorem squeezed_padded (fault : Fault) (width : Nat) :
    squeezed (fault.render (.record (.padded width))) = fault.render (.record .line) := by
  rw [render_line, ← Wording.squeezed_written fault.spaced_line width,
    ← Record.renderLine_eq_written rfl]
  rfl

theorem eq_of_message_eq {first second : Fault} (same : first.message = second.message) :
    first = second := by
  rw [message_eq_written, message_eq_written] at same
  exact tells_sentence.eq_of_written_eq same

theorem eq_of_line_eq {first second : Fault}
    (same : first.render (.record .line) = second.render (.record .line)) : first = second := by
  rw [render_line, render_line] at same
  exact tells_line.eq_of_written_eq same

theorem eq_of_render_eq {style : Style} {first second : Fault}
    (same : first.render style = second.render style) : first = second := by
  cases style with
  | sentence | sentenceRight | sentenceCentred | sentenceCut => exact eq_of_message_eq same
  | record layout =>
      cases layout with
      | line => exact eq_of_line_eq same
      | padded width =>
          refine eq_of_line_eq ?_
          rw [← squeezed_padded first width, ← squeezed_padded second width, same]
      | block =>
          have blocks : first.record.renderBlock = second.record.renderBlock := same
          rw [Record.renderBlock_eq_written rfl, Record.renderBlock_eq_written rfl] at blocks
          exact tells_block.eq_of_written_eq blocks

/-- The text of a fault in any style tells the fault. A sentence is the same in whatever room it is
asked to take, and a record with padded numbers is the plain one but for longer runs of blanks. -/
theorem text_tells_fault (style : Style) (first second : Fault) (width : Nat) :
    (first.render style = second.render style ↔ first = second) ∧
    (first.render (.sentenceRight width) = first.render .sentence ∧
      first.render (.sentenceCentred width) = first.render .sentence ∧
      first.render (.sentenceCut width) = first.render .sentence) ∧
    squeezed (first.render (.record (.padded width))) = first.render (.record .line) :=
  ⟨⟨eq_of_render_eq, congrArg (render style)⟩, ⟨rfl, rfl, rfl⟩, squeezed_padded first width⟩

end Fault

end StaticOpus
