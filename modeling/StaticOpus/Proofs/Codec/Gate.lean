import StaticOpus.Proofs.Codec.Supply
import StaticOpus.Proofs.Codec.Turn

/-!
# A verification decides about every set-up

For a codec whose reported sizes do not change, a verification and a set-up ask the same question
and judge the reply alike. A verified codec is therefore never refused in a set-up for its sizes,
and a codec that a verification refuses for a size is refused in a set-up by the same fault.

## Implementation notes

Replies are given in turn, so a codec loses one with each question. It is steady when the replies
that it has for a mode are all the same, which makes the loss unobservable.
-/

namespace StaticOpus

namespace Replies

variable {reply : Int32} {replies : Replies}

theorem mem_of_mem_next {listed : Int32} (h : listed ∈ (next replies).2) : listed ∈ replies := by
  match replies with
  | [] => exact h
  | [_] => exact h
  | _ :: _ :: _ => exact List.mem_cons_of_mem _ h

/-- Where all replies are the same, the next one is the same as the one after it. -/
theorem next_next (same : ∀ listed ∈ replies, listed = reply) :
    (next (next replies).2).1 = (next replies).1 := by
  match replies with
  | [] => rfl
  | [_] => rfl
  | [first, second] => simp [next, same first, same second]
  | first :: second :: _ :: _ => simp [next, same first, same second]

end Replies

namespace Codec

/-- All replies that the codec has for a mode are the same. -/
def Steady (codec : Codec) : Prop :=
  ∀ mode, ∃ reply, ∀ listed ∈ codec.sizes mode, listed = reply

variable {codec : Codec}

/-- What a codec replies after a question for a size it has had to reply before it. -/
theorem mem_sizes_of_mem_askSize {asked mode : Mode} {listed : Int32}
    (h : listed ∈ (codec.askSize asked).2.sizes mode) : listed ∈ codec.sizes mode := by
  rw [sizes_askSize] at h
  split at h
  · exact Replies.mem_of_mem_next h
  · exact h

theorem askSize_reply_eq (mode : Mode) (codec : Codec) :
    (codec.askSize mode).1 = (Replies.next (codec.sizes mode)).1.getD 0 := rfl

/-- A question for a size does not change what a steady codec replies to the next one. -/
theorem Steady.reply_askSize (steady : codec.Steady) (asked mode : Mode) :
    ((codec.askSize asked).2.askSize mode).1 = (codec.askSize mode).1 := by
  obtain ⟨reply, same⟩ := steady mode
  rw [askSize_reply_eq, askSize_reply_eq, sizes_askSize]
  split
  · rw [Replies.next_next same]
  · rfl

theorem Steady.askSize (steady : codec.Steady) (asked : Mode) :
    (codec.askSize asked).2.Steady := by
  intro mode
  obtain ⟨reply, same⟩ := steady mode
  exact ⟨reply, fun listed h => same listed (mem_sizes_of_mem_askSize h)⟩

/-- No call changes what a steady codec replies to a question for a size. -/
theorem Steady.respond (steady : codec.Steady) (call : Call) :
    (codec.respond call).2.Steady ∧
      ∀ mode, ((codec.respond call).2.askSize mode).1 = (codec.askSize mode).1 := by
  cases call with
  | version => exact ⟨steady, fun _ => rfl⟩
  | init rate channels => exact ⟨steady, fun mode => by cases mode <;> rfl⟩
  | explain code => exact ⟨steady, fun _ => rfl⟩
  | size channels =>
      cases known : Mode.ofChannels? channels with
      | none =>
          have unknown : codec.respond (.size channels) = (.number 0, codec) := by
            simp only [Codec.respond, known]
          rw [unknown]
          exact ⟨steady, fun _ => rfl⟩
      | some asked =>
          simp only [Codec.respond, known]
          exact ⟨steady.askSize asked, steady.reply_askSize asked⟩

theorem Steady.converse (steady : codec.Steady) (calls : List Call) :
    (codec.converse calls).2.Steady ∧
      ∀ mode, ((codec.converse calls).2.askSize mode).1 = (codec.askSize mode).1 := by
  induction calls generalizing codec with
  | nil => exact ⟨steady, fun _ => rfl⟩
  | cons call rest ih =>
      obtain ⟨kept, same⟩ := steady.respond call
      obtain ⟨keptRest, sameRest⟩ := ih kept
      exact ⟨keptRest, fun mode => (sameRest mode).trans (same mode)⟩

end Codec

namespace Link

open Fit

variable {build : Build} {link : Link} {mode : Mode}

/-- A session in which the codec stays in place. -/
def Quiet (steps : List Step) : Prop := ∀ change, .change change ∉ steps

/-- What a quiet session makes of a codec, it makes of it by calls alone. -/
theorem run_quiet {steps : List Step} (quiet : Quiet steps) (build : Build) (link : Link) :
    ∃ calls, (run build steps link).2.codec = (link.codec.converse calls).2 := by
  induction steps generalizing link with
  | nil => exact ⟨[], rfl⟩
  | cons first rest ih =>
      have here : ∀ change, first ≠ .change change := by
        intro change same
        apply quiet change
        simp [same]
      have step := step_conversed here build link
      obtain ⟨calls, later⟩ := ih (fun change h => quiet change (by simp [h]))
        (Link.step build first link).2
      refine ⟨(Link.step build first link).1.calls ++ calls, ?_⟩
      rw [Codec.converse_append]
      exact later.trans (by rw [step.codec_eq]; rfl)

/-- Over a steady codec a round of checks passes if all its modes fit, and else it ends with the
question for a mode that does not. -/
theorem checkModes_of_steady {modes : List Mode} {link : Link} (steady : link.codec.Steady)
    (supported : ∀ mode ∈ modes, build.supports mode = true) :
    let round := checkModes build askSize modes link
    ((∀ mode ∈ modes, Fits build (link.codec.askSize mode).1) ∧ round.checked = ⟨.ok (), []⟩) ∨
      ∃ mode ∈ modes, ¬ Fits build (link.codec.askSize mode).1 ∧
        round.checked = checkReply build mode (link.codec.askSize mode).1 ∧
        round.reporter.calls.getLast? = some (sizeCall mode) := by
  induction modes generalizing link with
  | nil => exact Or.inl ⟨by simp, rfl⟩
  | cons mode modes ih =>
      have here : build.supports mode = true := supported mode (by simp)
      by_cases fits : Fits build (link.askSize mode).1
      · rw [checkModes_cons_of_fits here fits]
        have same := steady.reply_askSize mode
        have steady_after : (link.askSize mode).2.codec.Steady := steady.askSize mode
        rcases ih steady_after (fun other h => supported other (by simp [h])) with
          ⟨allFit, passed⟩ | ⟨other, mem, misfit, refused, last⟩
        · simp only [codec_askSize, same] at allFit
          exact Or.inl ⟨List.forall_mem_cons.mpr ⟨fits, allFit⟩, passed⟩
        · simp only [codec_askSize, same] at misfit refused
          exact Or.inr ⟨other, List.mem_cons_of_mem _ mem, misfit, refused, last⟩
      · rw [checkModes_cons_of_not_fits here fits]
        exact Or.inr ⟨mode, by simp, fits, rfl, List.getLast?_concat⟩

/-- A verification of a steady codec of the pinned release passes if the size of every supported
mode fits, and else it ends with the question for one that does not. -/
theorem verify_of_steady {link : Link} (steady : link.codec.Steady)
    (pinned : Release.isPinned link.version.1.toList = true) :
    ((∀ mode, build.supports mode = true → Fits build (link.codec.askSize mode).1) ∧
        (link.verify build).1 = .ok ()) ∨
      ∃ mode, build.supports mode = true ∧ ¬ Fits build (link.codec.askSize mode).1 ∧
        (link.verify build).1 = (checkReply build mode (link.codec.askSize mode).1).result ∧
        (link.verify build).2.calls.getLast? = some (sizeCall mode) := by
  rw [verify_of_pinned pinned]
  have steady_after : link.version.2.codec.Steady := steady
  rcases checkModes_of_steady steady_after (fun _ h => Build.mem_supported.mp h) with
    ⟨allFit, passed⟩ | ⟨mode, mem, misfit, refused, last⟩
  · refine Or.inl ⟨fun mode supported => allFit mode (Build.mem_supported.mpr supported), ?_⟩
    exact congrArg Checked.result passed
  · refine Or.inr ⟨mode, Build.mem_supported.mp mem, misfit, ?_, last⟩
    exact congrArg Checked.result refused

/-- A set-up reaches the codec's own set-up, so that the codec alone decides. -/
def Report.Reaches (rate : Int32) (mode : Mode) (report : Report) : Prop :=
  Call.init rate mode.channels ∈ report.calls ∧
    (report.answer = .checked (.ok ()) ∨
      ∃ code, report.answer = .checked (.error (.initFailed code)))

/-- A set-up reaches the codec exactly where its mode is supported and the reported size fits. -/
theorem init_reaches_iff {rate : Int32} {link : Link} :
    (Link.step build (.init rate mode) link).1.Reaches rate mode ↔
      build.supports mode = true ∧ Fits build (link.codec.askSize mode).1 := by
  have setUp := init_setUp build rate mode link.cleared
  have calls := setUp.conversed.calls_of_cleared
  rw [step_init]
  constructor
  · rintro ⟨called, -⟩
    rw [calls] at called
    exact ⟨setUp.supports_of_mem_calls called, setUp.fits_of_handed_over called⟩
  · rintro ⟨supported, fits⟩
    unfold Report.Reaches
    rw [calls]
    generalize (link.cleared.init build rate mode).1 = result at setUp ⊢
    generalize (link.cleared.init build rate mode).2 = after at setUp
    cases setUp with
    | unsupported other => simp [supported] at other
    | noSize _ asked small => exact absurd (asked ▸ fits.1) (Int.not_lt.mpr small)
    | tooLarge _ asked large => exact absurd (asked ▸ fits.2) (Int.not_le.mpr large)
    | done => exact ⟨by simp [setUpCalls], Or.inl rfl⟩
    | failed => exact ⟨by simp [setUpCalls], Or.inr ⟨_, rfl⟩⟩

/-- A set-up whose reported size does not fit is refused as the check of the reply refuses it, and
the codec is not called again. -/
theorem init_refused {rate : Int32} {link : Link} {fault : Fault}
    (supported : build.supports mode = true)
    (refused : (checkReply build mode (link.codec.askSize mode).1).result = .error fault) :
    let report := (Link.step build (.init rate mode) link).1
    report.answer = .checked (.error fault) ∧ report.calls = [sizeCall mode] := by
  have refused : (checkReply build mode (link.cleared.askSize mode).1).result = .error fault :=
    refused
  intro report
  cases h : checkReply build mode (link.cleared.askSize mode).1 with
  | mk result log =>
      obtain rfl : result = .error fault := by simpa only [h] using refused
      have outcome : link.cleared.init build rate mode =
          (.error fault, (link.cleared.askSize mode).2.noteEvents log) := by
        rw [init_eq, if_pos supported, h]
      have report_eq : report = _ := congrArg Prod.fst (step_init build link rate mode)
      rw [report_eq, outcome]
      exact ⟨rfl, rfl⟩

/-- The replies that a quiet session leaves are those that a verification gets. -/
theorem askSize_reply_of_quiet {steps : List Step} (steady : link.codec.Steady)
    (quiet : Quiet steps) (mode : Mode) :
    ((run build steps link).2.codec.askSize mode).1 = (link.codec.askSize mode).1 := by
  obtain ⟨calls, codec⟩ := run_quiet quiet build link
  rw [codec]
  exact (steady.converse calls).2 mode

/-- The gate. A verification of a steady codec passes exactly if the release is the pinned one and
every set-up for a supported mode reaches the codec. Once it passes, every such set-up after any
quiet session does so too. If it fails for a size, then every set-up for the mode that was asked for
last, now or after any quiet session, fails by the same fault, and before the codec is given the
storage. -/
theorem verify_gates_init (build : Build) (link : Link) (steady : link.codec.Steady) :
    ((Link.step build .verify link).1.answer = .checked (.ok ()) ↔
      (Release.check link.version.1).result = .ok () ∧
        ∀ mode, build.supports mode = true → ∀ rate,
          (Link.step build (.init rate mode) link).1.Reaches rate mode) ∧
    ((Link.step build .verify link).1.answer = .checked (.ok ()) →
      ∀ mode, build.supports mode = true → ∀ rate steps, Quiet steps →
        (Link.step build (.init rate mode) (run build steps link).2).1.Reaches rate mode) ∧
    ∀ fault, (Link.step build .verify link).1.answer = .checked (.error fault) →
      fault ≠ .versionMismatch →
        ∃ mode, build.supports mode = true ∧
          (Link.step build .verify link).1.calls.getLast? = some (sizeCall mode) ∧
          ∀ rate steps, Quiet steps →
            let report := (Link.step build (.init rate mode) (run build steps link).2).1
            report.answer = .checked (.error fault) ∧ report.calls = [sizeCall mode] := by
  have reply (steps : List Step) (quiet : Quiet steps) (mode : Mode) :
      ((run build steps link).2.codec.askSize mode).1 = (link.codec.askSize mode).1 :=
    askSize_reply_of_quiet steady quiet mode
  rw [step_verify]
  cases pinned : Release.isPinned link.version.1.toList with
  | false =>
      have other : Release.isPinned link.cleared.version.1.toList = false := pinned
      simp [verify_of_not_pinned other, Release.check, pinned]
  | true =>
      have accepted : (Release.check link.version.1).result = .ok () := by
        simp [Release.check, pinned]
      have steady_cleared : link.cleared.codec.Steady := steady
      rcases verify_of_steady steady_cleared pinned with
        ⟨allFit, passed⟩ | ⟨mode, supported, misfit, refused, last⟩
      · refine ⟨⟨fun _ => ⟨accepted, ?_⟩, fun _ => congrArg Answer.checked passed⟩, fun _ => ?_, ?_⟩
        · intro mode supported rate
          exact init_reaches_iff.mpr ⟨supported, allFit mode supported⟩
        · intro mode supported rate steps quiet
          exact init_reaches_iff.mpr ⟨supported, reply steps quiet mode ▸ allFit mode supported⟩
        · intro fault failed
          simp [passed] at failed
      · obtain ⟨found, refused', -⟩ := checkReply_of_not_fits supported misfit
        rw [refused'] at refused
        refine ⟨⟨fun ok => by simp [refused] at ok, ?_⟩, fun ok => by simp [refused] at ok, ?_⟩
        · rintro ⟨-, reaches⟩
          exact absurd (init_reaches_iff.mp (reaches mode supported 0)).2 misfit
        · intro fault failed _
          obtain rfl : found = fault := by simpa [refused] using failed
          refine ⟨mode, supported, last, fun rate steps quiet => ?_⟩
          exact init_refused supported (reply steps quiet mode ▸ refused')

/-- A codec whose stereo decoder is one byte too large for the storage. -/
def largeStereoCodec : Codec where
  version := some (Text.Utf8.encode "libopus 1.5.2-fixed")
  monoSizes := [17860]
  stereoSizes := [26581, 26581]

theorem verify_gates_large_stereo :
    let link := fresh ⟨.stereo⟩ largeStereoCodec
    link.codec.Steady ∧ ∃ mode, ∀ rate,
      (Link.step ⟨.stereo⟩ (.init rate mode) link).1.answer =
        .checked (.error (.tooSmall .stereo 26581 26580)) := by
  have pinned : Release.isPinned
      (fresh ⟨.stereo⟩ largeStereoCodec).cleared.version.1.toList = true := by decide
  have failed : (Link.step ⟨.stereo⟩ .verify (fresh ⟨.stereo⟩ largeStereoCodec)).1.answer =
      .checked (.error (.tooSmall .stereo 26581 26580)) := by
    rw [step_verify, verify_of_pinned pinned]
    rfl
  have steady : largeStereoCodec.Steady := fun mode => by
    cases mode with
    | mono => exact ⟨17860, by simp [largeStereoCodec, Codec.sizes]⟩
    | stereo => exact ⟨26581, by simp [largeStereoCodec, Codec.sizes]⟩
  obtain ⟨mode, -, -, refused⟩ :=
    (verify_gates_init ⟨.stereo⟩ (fresh ⟨.stereo⟩ largeStereoCodec) steady).2.2 _ failed (by simp)
  exact ⟨steady, mode, fun rate => (refused rate [] (by simp [Quiet])).1⟩

end Link

end StaticOpus
