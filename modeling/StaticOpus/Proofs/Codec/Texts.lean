import Mathlib.Data.List.Forall2
import StaticOpus.Proofs.Codec.Outcome

/-!
# The codec's texts decide nothing

A refused set-up asks the codec for a text in the middle of its failure. Two codecs that give the
same replies, whatever their texts, are nevertheless led through every session in the same way: by
the same answers, calls and bytes. Only the texts of refused set-ups in the log tell them apart, and
only where the codecs have different texts for the code.

## Implementation notes

The two codecs change as they reply, so the statement about whole sessions is about links whose
codecs have the same replies left and still the texts that they started with.
-/

namespace StaticOpus

namespace Codec

/-- What a caller is told about a code: the codec's text for it, as far as that can be read. -/
def message (codec : Codec) (code : Int32) : String :=
  (Text.CString.read (codec.text code)).getD "Unknown error"

/-- Two codecs have the same replies left to give. Their texts may differ. -/
structure SameReplies (codec other : Codec) : Prop where
  monoSizes : other.monoSizes = codec.monoSizes
  stereoSizes : other.stereoSizes = codec.stereoSizes
  initCodes : other.initCodes = codec.initCodes

section SameReplies

variable {codec other : Codec}

theorem SameReplies.askSize (same : codec.SameReplies other) (mode : Mode) :
    (other.askSize mode).1 = (codec.askSize mode).1 ∧
      (codec.askSize mode).2.SameReplies (other.askSize mode).2 := by
  obtain ⟨mono, stereo, init⟩ := same
  cases mode with
  | mono => exact ⟨by simp only [Codec.askSize, sizes, mono],
      by simp only [Codec.askSize, sizes, mono], stereo, init⟩
  | stereo => exact ⟨by simp only [Codec.askSize, sizes, stereo],
      mono, by simp only [Codec.askSize, sizes, stereo], init⟩

theorem SameReplies.askInit (same : codec.SameReplies other) (rate : Int32) :
    (other.askInit rate).1 = (codec.askInit rate).1 ∧
      (codec.askInit rate).2.SameReplies (other.askInit rate).2 := by
  obtain ⟨mono, stereo, init⟩ := same
  exact ⟨by simp only [Codec.askInit, init], mono, stereo, by simp only [Codec.askInit, init]⟩

/-- The same call leaves both with the same replies, even if it asks for a text. -/
theorem SameReplies.respond (same : codec.SameReplies other) (call : Call) :
    (codec.respond call).2.SameReplies (other.respond call).2 := by
  cases call with
  | version => exact same
  | explain code => exact same
  | init rate channels => exact (same.askInit rate).2
  | size channels =>
      simp only [Codec.respond]
      cases Mode.ofChannels? channels with
      | none => exact same
      | some mode => exact (same.askSize mode).2

theorem SameReplies.converse (same : codec.SameReplies other) (calls : List Call) :
    (codec.converse calls).2.SameReplies (other.converse calls).2 := by
  induction calls generalizing codec other with
  | nil => exact same
  | cons call rest ih => exact ih (same.respond call)

end SameReplies

/-- No call changes the texts of a codec. -/
theorem texts_respond (call : Call) (codec : Codec) :
    (codec.respond call).2.texts = codec.texts := by
  cases call with
  | size channels =>
      simp only [respond]
      cases Mode.ofChannels? channels with
      | none => rfl
      | some mode => cases mode <;> rfl
  | _ => rfl

theorem texts_converse (calls : List Call) (codec : Codec) :
    (codec.converse calls).2.texts = codec.texts := by
  induction calls generalizing codec with
  | nil => rfl
  | cons call rest ih => exact (ih (codec.respond call).2).trans (texts_respond call codec)

end Codec

/-- Two entries are the same, or report a refused set-up with the same code, each in its own codec's
text, and the codecs have different texts for that code. -/
inductive Event.SameButText (first second : Codec) : Event → Event → Prop
  | same (event : Event) : SameButText first second event event
  | reworded (code : Int32) (differ : first.message code ≠ second.message code) :
      SameButText first second (.initFailed code (first.message code))
        (.initFailed code (second.message code))

namespace Link

variable {first second : Codec} {link other : Link} {step : Step}

/-- A step that asks for sizes, sets decoders up, or is about the storage. -/
def Step.Working : Step → Prop
  | .size _ | .init _ _ | .renew | .read _ _ => True
  | .change _ | .version | .explain _ | .verify => False

/-- Two turns are the same but for the texts that their codecs have for the codes in the log. -/
structure Turn.SameButTexts (first second : Codec) (turn other : Turn) : Prop where
  step : other.step = turn.step
  answer : other.report.answer = turn.report.answer
  calls : other.report.calls = turn.report.calls
  storage : other.after.storage = turn.after.storage
  log : List.Forall₂ (Event.SameButText first second) turn.report.log other.report.log

/-- Two links with the same storage and the same replies left, each with the texts that it started
with. -/
structure AlikeButTexts (first second : Codec) (link other : Link) : Prop where
  replies : link.codec.SameReplies other.codec
  storage : other.storage = link.storage
  firstTexts : link.codec.texts = first.texts
  secondTexts : other.codec.texts = second.texts

theorem explain_eq_message {codec : Codec} (same : link.codec.texts = codec.texts) (code : Int32) :
    (link.explain code).1 = codec.message code := by
  have text : link.codec.text code = codec.text code := by simp only [Codec.text, same]
  simp only [explain, Codec.message, text]

/-- What a set-up logs differs at most in the text for its code. -/
theorem entries_sameButText (h : AlikeButTexts first second link other)
    {result : Except Fault Unit} (release : result ≠ .error .versionMismatch) :
    List.Forall₂ (Event.SameButText first second) (link.entries result) (other.entries result) := by
  rcases result with fault | done
  · cases fault with
    | versionMismatch => exact absurd rfl release
    | tooSmall mode required available => exact .cons (.same _) .nil
    | initFailed code =>
        simp only [entries, explain_eq_message h.firstTexts, explain_eq_message h.secondTexts]
        refine .cons ?_ .nil
        by_cases differ : first.message code = second.message code
        · rw [differ]
          exact .same _
        · exact .reworded code differ
    | _ => exact .nil
  · exact .nil

/-- A set-up never judges the release. -/
theorem init_answer_ne_versionMismatch (build : Build) (rate : Int32) (mode : Mode) (link : Link) :
    (Link.step build (.init rate mode) link).1.answer ≠ .checked (.error .versionMismatch) := by
  rw [step_init]
  intro mismatch
  have setUp := init_setUp build rate mode link.cleared
  rw [Answer.checked.inj mismatch] at setUp
  cases setUp

/-- On links that are alike every working step is reported alike. -/
theorem AlikeButTexts.report (h : AlikeButTexts first second link other) (working : step.Working)
    (build : Build) :
    (Link.step build step other).1.answer = (Link.step build step link).1.answer ∧
      (Link.step build step other).1.calls = (Link.step build step link).1.calls ∧
      List.Forall₂ (Event.SameButText first second) (Link.step build step link).1.log
        (Link.step build step other).1.log := by
  cases step with
  | size mode =>
      have reply := (h.replies.askSize mode).1
      exact ⟨congrArg (fun reply => Answer.size (Fit.sizeOfReply reply)) reply, rfl, .nil⟩
  | init rate mode =>
      obtain ⟨sizes, asked⟩ := h.replies.askSize mode
      have answers : (Link.step build (.init rate mode) other).1.answer =
          (Link.step build (.init rate mode) link).1.answer :=
        init_answer_congr sizes (asked.askInit rate).1
      obtain ⟨result, answer⟩ : ∃ result,
          (Link.step build (.init rate mode) link).1.answer = .checked result := ⟨_, rfl⟩
      have release := init_answer_ne_versionMismatch build rate mode link
      rw [answer, ne_eq, Answer.checked.injEq] at release
      rw [step_init_report answer, step_init_report (answers.trans answer)]
      exact ⟨rfl, rfl, entries_sameButText h release⟩
  | renew => exact ⟨rfl, rfl, .nil⟩
  | read offset length =>
      rw [step_read, step_read, h.storage]
      exact ⟨rfl, rfl, .nil⟩
  | _ => exact working.elim

/-- Links that are alike stay so through every working step. -/
theorem AlikeButTexts.after (h : AlikeButTexts first second link other) (working : step.Working)
    (build : Build) :
    AlikeButTexts first second (Link.step build step link).2 (Link.step build step other).2 := by
  obtain ⟨answer, calls, -⟩ := h.report working build
  have quiet : ∀ change, step ≠ .change change := by
    rintro change rfl
    exact working
  have asked := (step_conversed quiet build link).codec_eq
  have otherAsked := (step_conversed quiet build other).codec_eq
  rw [calls] at otherAsked
  refine ⟨?_, ?_, ?_, ?_⟩
  · rw [asked, otherAsked]
    exact h.replies.converse _
  · rw [step_storage, step_storage, answer, h.storage]
  · rw [asked, Codec.texts_converse]
    exact h.firstTexts
  · rw [otherAsked, Codec.texts_converse]
    exact h.secondTexts

/-- So every session of working steps takes the same course on both. -/
theorem AlikeButTexts.turns {steps : List Step} (h : AlikeButTexts first second link other)
    (working : ∀ step ∈ steps, step.Working) (build : Build) :
    List.Forall₂ (Turn.SameButTexts first second) (turns build steps link)
      (turns build steps other) := by
  induction steps generalizing link other with
  | nil => exact .nil
  | cons step rest ih =>
      rw [List.forall_mem_cons] at working
      obtain ⟨answer, calls, log⟩ := h.report working.1 build
      have after := h.after working.1 build
      exact .cons ⟨rfl, answer, calls, after.storage, log⟩ (ih after working.2)

/-- The texts of a codec decide nothing. Two codecs with the same replies, whatever their version
texts and their texts for codes, are led through every session of questions for sizes, set-ups,
reads and renewals by the same answers and calls and with the same bytes in the storage. Their logs
differ only in the texts of refused set-ups, and there only if the codecs have different texts for
the code. No set-up and no question for a size asks for the version. -/
theorem texts_decide_nothing (build : Build) :
    (∀ (first second : Codec) (steps : List Step), first.SameReplies second →
      (∀ step ∈ steps, step.Working) →
        List.Forall₂ (Turn.SameButTexts first second) (turns build steps (fresh build first))
          (turns build steps (fresh build second))) ∧
    ∀ (rate : Int32) (mode : Mode) (link : Link),
      .version ∉ (Link.step build (.init rate mode) link).1.calls ∧
        .version ∉ (Link.step build (.size mode) link).1.calls := by
  constructor
  · intro first second steps same working
    have start : AlikeButTexts first second (fresh build first) (fresh build second) :=
      ⟨same, rfl, rfl, rfl⟩
    exact start.turns working build
  · intro rate mode link
    constructor
    · intro called
      rw [step_init, (init_setUp build rate mode link.cleared).conversed.calls_of_cleared] at called
      rcases eq_of_mem_setUpCalls called with asked | handed | ⟨code, explained⟩
      · cases asked
      · cases handed
      · cases explained
    · intro called
      cases List.mem_singleton.mp called

/-- Two codecs refuse a set-up, one with a text of its own and the other without a text that can be
read. -/
theorem texts_decide_nothing_of_refusal :
    let first : Codec := { monoSizes := [100], initCodes := [-3, 0],
                           texts := [(-3, some (Text.Utf8.encode "boom"))] }
    let second : Codec := { first with version := some [0xFF], texts := [(-3, some [0xFF])] }
    let steps : List Step := [.init 48000 .mono, .size .mono, .init (-5) .mono, .read 0 8]
    first.message (-3) = "boom" ∧ second.message (-3) = "Unknown error" ∧
      List.Forall₂ (Turn.SameButTexts first second) (turns ⟨.stereo⟩ steps (fresh ⟨.stereo⟩ first))
        (turns ⟨.stereo⟩ steps (fresh ⟨.stereo⟩ second)) := by
  intro first second steps
  have working : ∀ step ∈ steps, step.Working := by simp [steps, Step.Working]
  exact ⟨by decide, by decide,
    (texts_decide_nothing ⟨.stereo⟩).1 first second steps ⟨rfl, rfl, rfl⟩ working⟩

end Link

end StaticOpus
