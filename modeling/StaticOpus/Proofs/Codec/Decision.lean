import StaticOpus.Proofs.Codec.Contents
import StaticOpus.Proofs.Codec.Outcome
import StaticOpus.Proofs.Codec.Supply

/-!
# A set-up is decided by two replies

A set-up takes one size from the codec, and one code only if that size fits the storage. The two
numbers decide what it comes to: the size alone if it does not fit, and the code if it does, where
every code but zero is a failure. A set-up that ends before the codec is given the storage leaves no
trace but the size that it has used up.
-/

namespace StaticOpus.Link

open Fit Codec

variable {build : Build} {link other : Link} {rate : Int32} {mode : Mode}

/-! ## Sessions that go on alike -/

/-- What follows on a link depends on its codec and its storage alone. -/
theorem step_congr (codec : other.codec = link.codec) (storage : other.storage = link.storage)
    (build : Build) (step : Step) : Link.step build step other = Link.step build step link := by
  simp only [Link.step, codec, storage]

theorem run_congr (codec : other.codec = link.codec) (storage : other.storage = link.storage)
    (build : Build) (steps : List Step) : (run build steps other).1 = (run build steps link).1 := by
  cases steps with
  | nil => rfl
  | cons first rest => simp only [run, step_congr codec storage]

/-! ## Set-ups that end with the question for the size -/

/-- One for the given mode, and zero for the other. -/
def once (mode : Mode) (other : Mode) : Nat := if other = mode then 1 else 0

/-- The turn asks for the size of a decoder and ends with a fault before it asks anything else. The
codec has given one size, and every session goes on as if nothing but that question had been
asked. -/
structure Turn.EndsWithQuestion (build : Build) (mode : Mode) (fault : Fault) (turn : Turn) :
    Prop where
  answer : turn.report.answer = .checked (.error fault)
  calls : turn.report.calls = [.size mode.channels]
  spent : Spent turn.before.codec turn.after.codec (once mode) 0
  later : ∀ steps, (run build steps turn.after).1 =
    (run build steps (Link.step build (.size mode) turn.before).2).1

/-- The codec after a set-up has answered just the calls of the set-up. -/
theorem init_codec {result : Except Fault Unit}
    (answered : (Link.step build (.init rate mode) link).1.answer = .checked result) :
    (Link.step build (.init rate mode) link).2.codec =
      (link.codec.converse (setUpCalls rate mode result)).2 := by
  have quiet : ∀ change, Step.init rate mode ≠ .change change := by simp
  have conversed := step_conversed quiet build link
  rw [step_init_report answered] at conversed
  exact conversed.codec_eq

theorem endsWithQuestion {fault : Fault}
    (answered : (Link.step build (.init rate mode) link).1.answer = .checked (.error fault))
    (question : setUpCalls rate mode (.error fault) = [sizeCall mode]) :
    (Turn.take build (.init rate mode) link).EndsWithQuestion build mode fault := by
  have codec : (Link.step build (.init rate mode) link).2.codec = (link.codec.askSize mode).2 := by
    rw [init_codec answered, question]
    exact congrArg Prod.snd (respond_size mode link.codec)
  constructor
  · exact answered
  · exact (congrArg Report.calls (step_init_report answered)).trans question
  · exact codec ▸ spent_askSize mode link.codec
  · intro steps
    apply run_congr
    · exact codec
    · exact step_storage_of_fault (Or.inl answered)

/-- A build without room for the mode ends a set-up without a trace. -/
theorem init_leaves_no_trace (unsupported : build.supports mode = false) :
    let turn := Turn.take build (.init rate mode) link
    turn.report.answer = .checked (.error (.unsupported mode)) ∧ turn.report.calls = [] ∧
      turn.after.codec = link.codec ∧
      ∀ steps, (run build steps turn.after).1 = (run build steps link).1 := by
  have answered : (Link.step build (.init rate mode) link).1.answer =
      .checked (.error (.unsupported mode)) := init_answer_of_unsupported unsupported
  have codec : (Link.step build (.init rate mode) link).2.codec = link.codec :=
    init_codec answered
  refine ⟨answered, congrArg Report.calls (step_init_report answered), codec, ?_⟩
  intro steps
  exact run_congr codec (step_storage_of_fault (Or.inl answered)) build steps

/-! ## Set-ups that the codec ends -/

/-- The turn asks for the size of a decoder, gives the codec the storage for it, and comes to what
the codec's code says. The codec has given one size and one code. -/
structure Turn.EndsWithCode (rate : Int32) (mode : Mode) (code : Int32) (turn : Turn) : Prop where
  answer : turn.report.answer =
    .checked (if code = 0 then .ok () else .error (.initFailed code))
  calls : turn.report.calls = .size mode.channels :: .init rate mode.channels ::
    if code = 0 then [] else [.explain code]
  spent : Spent turn.before.codec turn.after.codec (once mode) 1

/-- The calls that follow from a code, and the codec after them. -/
theorem setUpCalls_outcome (rate : Int32) (mode : Mode) (code : Int32) (codec : Codec) :
    setUpCalls rate mode (outcome code) =
        .size mode.channels :: .init rate mode.channels ::
          (if code = 0 then [] else [.explain code]) ∧
      (codec.converse (setUpCalls rate mode (outcome code))).2 =
        ((codec.askSize mode).2.askInit rate).2 := by
  have asked : codec.respond (.size mode.channels) = _ := respond_size mode codec
  by_cases taken : code = 0
  · have result : outcome code = .ok () := if_pos taken
    rw [result, if_pos taken]
    refine ⟨rfl, ?_⟩
    simp only [setUpCalls, sizeCall, converse, asked, respond_init]
  · have result : outcome code = .error (.initFailed code) := if_neg taken
    rw [result, if_neg taken]
    refine ⟨rfl, ?_⟩
    simp only [setUpCalls, sizeCall, converse, asked, respond_init]
    rfl

/-- After a fitting size the code decides. -/
theorem endsWithCode (supported : build.supports mode = true)
    (fits : Fits build (link.codec.askSize mode).1) :
    (Turn.take build (.init rate mode) link).EndsWithCode rate mode
      ((link.codec.askSize mode).2.askInit rate).1 := by
  have answered : (Link.step build (.init rate mode) link).1.answer =
      .checked (outcome ((link.codec.askSize mode).2.askInit rate).1) :=
    init_answer_of_fits supported fits
  obtain ⟨calls, codec⟩ := setUpCalls_outcome rate mode
    ((link.codec.askSize mode).2.askInit rate).1 link.codec
  constructor
  · exact answered
  · exact (congrArg Report.calls (step_init_report answered)).trans calls
  · have after : (Link.step build (.init rate mode) link).2.codec = _ :=
      (init_codec answered).trans codec
    exact after ▸ (spent_askSize mode link.codec).trans (spent_askInit rate _)

/-- A set-up is decided by the codec's next replies. Where the build has no room for the mode, none
is used. Else the next size is, and it decides alone if it is not positive or past the storage: the
turn then ends with the question for it. If it fits, the next code decides, whatever it is. -/
theorem init_decided_by_replies (build : Build) (rate : Int32) (mode : Mode) (link : Link) :
    let turn := Turn.take build (.init rate mode) link
    let size := link.codec.sizeAt mode 0
    let code := link.codec.codeAt rate 0
    (build.supports mode = false →
      turn.report.answer = .checked (.error (.unsupported mode)) ∧ turn.report.calls = [] ∧
        turn.after.codec = link.codec ∧
        ∀ steps, (run build steps turn.after).1 = (run build steps link).1) ∧
    (build.supports mode = true →
      (size.toInt ≤ 0 → turn.EndsWithQuestion build mode (.invalidSize size)) ∧
      ((build.decoderSize : Int) < size.toInt → turn.EndsWithQuestion build mode
        (.tooSmall mode size.toInt.toNat build.decoderSize)) ∧
      (0 < size.toInt → size.toInt ≤ build.decoderSize → turn.EndsWithCode rate mode code)) := by
  intro turn size code
  have asked : (link.codec.askSize mode).1 = size := askSize_reply mode link.codec
  have given : ((link.codec.askSize mode).2.askInit rate).1 = code := by
    rw [askInit_reply, codeAt, (spent_askSize mode link.codec).codes]
    rfl
  refine ⟨init_leaves_no_trace, fun supported => ⟨?_, ?_, ?_⟩⟩
  · intro small
    exact endsWithQuestion (init_answer_of_not_positive supported asked small) rfl
  · intro large
    exact endsWithQuestion (init_answer_of_large supported asked large) rfl
  · intro positive small
    have fits : Fits build (link.codec.askSize mode).1 := asked ▸ ⟨positive, small⟩
    exact given ▸ endsWithCode supported fits

/-- A codec that reports one byte too many, and then refuses a decoder of just the right size with a
positive code: the first set-up takes no code. -/
theorem init_decided_by_positive_code :
    let codec : Codec := { monoSizes := [17861, 17860, -1], initCodes := [5, 0] }
    let first := Turn.take ⟨.mono⟩ (.init 48000 .mono) (fresh ⟨.mono⟩ codec)
    let second := Turn.take ⟨.mono⟩ (.init (-5) .mono) first.after
    first.EndsWithQuestion ⟨.mono⟩ .mono (.tooSmall .mono 17861 17860) ∧
      second.EndsWithCode (-5) .mono 5 := by
  intro codec first second
  have large := (init_decided_by_replies ⟨.mono⟩ 48000 .mono (fresh ⟨.mono⟩ codec)).2 rfl
  have fitting := (init_decided_by_replies ⟨.mono⟩ (-5) .mono first.after).2 rfl
  exact ⟨large.2.1 (by decide), fitting.2.2 (by decide) (by decide)⟩

end StaticOpus.Link
