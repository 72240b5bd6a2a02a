import StaticOpus.Proofs.Codec.Reading
import StaticOpus.Proofs.Codec.Turn

/-!
# The log is an audit of every session

What a step logs can be told from what it answers. A storage that is too small, another release and
a refused set-up are logged once each, with the numbers and texts of the answer; nothing else is
logged. The codec is asked for the text of a code in a set-up exactly when it has refused that
set-up with that code.

## Implementation notes

An entry counts for its level and its fields, in whatever order the fields are. A text of the
codec's that is logged is told by its bytes, and not only by the reader that the log has it from.
-/

namespace StaticOpus

/-- An entry of the log has this level and just these fields. -/
def Event.Shows (event : Event) (level : Level) (fields : List (String × String)) : Prop :=
  event.level = level ∧ event.fields.Perm fields

namespace Link

open Fit Text

variable {build : Build} {link : Link}

/-! ## What the operations log -/

/-- The entries that an outcome calls for, at a link that gave it. -/
def entries (link : Link) : Except Fault Unit → List Event
  | .error (.tooSmall mode required available) => [.storageTooSmall mode required available]
  | .error .versionMismatch => [.otherRelease link.version.1 Release.pinned]
  | .error (.initFailed code) => [.initFailed code (link.explain code).1]
  | _ => []

theorem checkReply_log (build : Build) (mode : Mode) (reply : Int32) (link : Link) :
    (checkReply build mode reply).log = link.entries (checkReply build mode reply).result := by
  by_cases positive : 0 < reply.toInt
  · simp only [checkReply, sizeOfReply, if_pos positive, check]
    split
    · split <;> rfl
    · rfl
  · rw [checkReply_of_not_positive (Int.not_lt.mp positive)]
    rfl

/-- A round of checks logs what its outcome calls for, whoever reports the sizes. -/
theorem checkModes_log {σ : Type} (build : Build) (ask : Mode → σ → Int32 × σ) (modes : List Mode)
    (reporter : σ) (link : Link) :
    let round := checkModes build ask modes reporter
    round.checked.log = link.entries round.checked.result := by
  induction modes generalizing reporter with
  | nil => rfl
  | cons mode modes ih =>
      have here := checkReply_log build mode (ask mode reporter).1 link
      simp only [checkModes]
      generalize checkReply build mode (ask mode reporter).1 = checked at here ⊢
      rcases checked with ⟨_ | _, log⟩
      · exact here
      · obtain rfl : log = [] := here
        exact ih (ask mode reporter).2

/-- The reporter of a round of checks writes nothing to the log itself. -/
theorem checkModes_reporter_log (build : Build) (modes : List Mode) (link : Link) :
    (checkModes build askSize modes link).reporter.log = link.log := by
  induction modes generalizing link with
  | nil => rfl
  | cons mode modes ih =>
      simp only [checkModes]
      rcases checkReply build mode (link.askSize mode).1 with ⟨_ | _, log⟩
      · rfl
      · exact ih (link.askSize mode).2

theorem verify_log (build : Build) (link : Link) :
    (link.verify build).2.log = link.log ++ link.entries (link.verify build).1 := by
  cases pinned : Release.isPinned link.version.1.toList with
  | true =>
      rw [verify_of_pinned pinned]
      simp only [noteEvents, Fit.verify, checkModes_reporter_log]
      rw [checkModes_log build askSize build.supported link.version.2 link]
      rfl
  | false =>
      rw [verify_of_not_pinned pinned]
      rfl

/-- The text of a code does not depend on what the codec was asked before. -/
theorem explain_after_handOver (rate code : Int32) (mode : Mode) (link : Link) :
    (((link.askSize mode).2.handOver rate mode).2.explain code).1 = (link.explain code).1 := by
  cases mode <;> rfl

theorem SetUp.log_eq {rate : Int32} {mode : Mode} {result : Except Fault Unit} {after : Link}
    (h : SetUp build rate mode link result after) :
    after.log = link.log ++ link.entries result := by
  cases h with
  | unsupported => exact (List.append_nil _).symm
  | noSize => exact (List.append_nil _).symm
  | tooLarge => rfl
  | done => exact (List.append_nil _).symm
  | failed _ _ _ _ text_eq =>
      -- the text was asked for after two other calls
      rw [explain_after_handOver] at text_eq
      subst text_eq
      rfl

/-- A set-up asks for the text of a code exactly if it was refused with that code. -/
theorem explain_mem_setUpCalls_iff {rate code : Int32} {mode : Mode}
    {result : Except Fault Unit} :
    .explain code ∈ setUpCalls rate mode result ↔ result = .error (.initFailed code) := by
  rcases result with fault | done
  · cases fault <;> simp [setUpCalls, sizeCall, eq_comm]
  · simp [setUpCalls, sizeCall]

/-- A step logs what its outcome calls for if it verifies or sets up, and else nothing. -/
theorem step_log (build : Build) (step : Step) (link : Link) :
    (Link.step build step link).1.log =
      match (Link.step build step link).1.answer with
      | .checked result => link.entries result
      | _ => [] := by
  cases step with
  | verify => exact verify_log build link.cleared
  | init rate mode => exact (init_setUp build rate mode link.cleared).log_eq
  | read offset length =>
      rw [step_read]
      cases link.storage.read? offset length <;> rfl
  | _ => rfl

/-! ## The audit -/

/-- The log of a turn holds one entry, of this level and with just these fields. -/
def Turn.LogsOnly (turn : Turn) (level : Level) (fields : List (String × String)) : Prop :=
  ∃ event, turn.report.log = [event] ∧ event.Shows level fields

/-- The log of a turn holds the entry that its answer calls for, or nothing where that calls for
none. The texts in it are what stands before the first zero byte of the texts that the codec had at
the time of the turn, or what stands in for a text that cannot be read. -/
def Turn.LogsAnswer (turn : Turn) : Prop :=
  match turn.report.answer with
  | .checked (.error (.tooSmall mode required available)) =>
    turn.LogsOnly .error [("message", "OpusDecoder storage too small"),
      ("mode", toString mode.channels.toNat), ("required", toString required),
      ("available", toString available)]
  | .checked (.error .versionMismatch) =>
    ReadsAs "" "" turn.before.codec.version turn.before.version.1 ∧
      turn.LogsOnly .error [("message", "linked libopus is not the pinned release"),
        ("version", turn.before.version.1), ("pinned", "1.5.2")]
  | .checked (.error (.initFailed code)) =>
    ReadsAs "Unknown error" "Unknown error" (turn.before.codec.text code)
        (turn.before.explain code).1 ∧
      turn.LogsOnly .warn [("message", "opus_decoder_init failed"),
        ("code", toString code.toInt), ("message", (turn.before.explain code).1)]
  | _ => turn.report.log = []

/-- The log of a turn is told by its answer. -/
structure Turn.Audited (turn : Turn) : Prop where
  /-- The log holds the entry that the answer calls for, and nothing else. -/
  log : turn.LogsAnswer
  /-- Only verifications and set-ups log anything. -/
  silent : turn.step ≠ .verify → (∀ rate mode, turn.step ≠ .init rate mode) → turn.report.log = []
  /-- A set-up asks for the text of a code exactly if it was refused with that code: once, and right
  after it has handed the storage over. -/
  explained : ∀ rate mode, turn.step = .init rate mode → ∀ code,
    (.explain code ∈ turn.report.calls ↔
      turn.report.answer = .checked (.error (.initFailed code))) ∧
    (turn.report.answer = .checked (.error (.initFailed code)) →
      ∃ earlier, turn.report.calls = earlier ++ [.init rate mode.channels, .explain code] ∧
        ∀ other, .explain other ∉ earlier)

theorem shows_storageTooSmall (mode : Mode) (required available : Nat) :
    (Event.storageTooSmall mode required available).Shows .error
      [("message", "OpusDecoder storage too small"), ("mode", toString mode.channels.toNat),
        ("required", toString required), ("available", toString available)] :=
  ⟨rfl, (List.perm_append_singleton _ _).symm⟩

theorem shows_otherRelease (version : String) :
    (Event.otherRelease version Release.pinned).Shows .error
      [("message", "linked libopus is not the pinned release"), ("version", version),
        ("pinned", "1.5.2")] :=
  ⟨rfl, .cons _ (.swap _ _ _)⟩

/-- Whichever of two comes first after a third, all three are there. -/
theorem cons_ite_perm {α : Type} (order : Prop) [Decidable order] (first second third : α) :
    (first :: if order then [third, second] else [second, third]).Perm [second, first, third] := by
  split
  · exact List.perm_append_singleton second [first, third]
  · exact .swap _ _ _

theorem shows_initFailed (code : Int32) (text : String) :
    (Event.initFailed code text).Shows .warn
      [("message", "opus_decoder_init failed"), ("code", toString code.toInt),
        ("message", text)] :=
  ⟨rfl, cons_ite_perm _ _ _ _⟩

/-- A step that neither verifies nor sets up is silent. -/
theorem step_log_eq_nil {step : Step} (no_verify : step ≠ .verify)
    (no_init : ∀ rate mode, step ≠ .init rate mode) (build : Build) (link : Link) :
    (Link.step build step link).1.log = [] := by
  cases step with
  | verify => exact absurd rfl no_verify
  | init rate mode => exact absurd rfl (no_init rate mode)
  | read offset length => rw [step_read]
  | _ => rfl

theorem take_logsAnswer (build : Build) (step : Step) (link : Link) :
    (Turn.take build step link).LogsAnswer := by
  let turn := Turn.take build step link
  have logged : turn.report.log = match turn.report.answer with
      | .checked result => link.entries result
      | _ => [] := step_log build step link
  show turn.LogsAnswer
  unfold Turn.LogsAnswer
  cases answer : turn.report.answer with
  | checked result =>
      rw [answer] at logged
      rcases result with fault | done
      · cases fault with
        | tooSmall mode required available => exact ⟨_, logged, shows_storageTooSmall _ _ _⟩
        | versionMismatch => exact ⟨getD_eq_iff.mp rfl, _, logged, shows_otherRelease _⟩
        | initFailed code => exact ⟨getD_eq_iff.mp rfl, _, logged, shows_initFailed _ _⟩
        | _ => exact logged
      · exact logged
  | _ =>
      rw [answer] at logged
      exact logged

theorem take_explained (build : Build) (rate : Int32) (mode : Mode) (link : Link) (code : Int32) :
    let turn := Turn.take build (.init rate mode) link
    (.explain code ∈ turn.report.calls ↔
      turn.report.answer = .checked (.error (.initFailed code))) ∧
    (turn.report.answer = .checked (.error (.initFailed code)) →
      ∃ earlier, turn.report.calls = earlier ++ [.init rate mode.channels, .explain code] ∧
        ∀ other, .explain other ∉ earlier) := by
  intro turn
  have setUp := init_setUp build rate mode link.cleared
  have answer : turn.report.answer = .checked (link.cleared.init build rate mode).1 := rfl
  have calls : turn.report.calls = setUpCalls rate mode (link.cleared.init build rate mode).1 :=
    setUp.conversed.calls_of_cleared
  rw [answer, calls, explain_mem_setUpCalls_iff, Answer.checked.injEq]
  refine ⟨Iff.rfl, ?_⟩
  intro refused
  rw [refused]
  exact ⟨[sizeCall mode], rfl, by simp [sizeCall]⟩

/-- In every session with every codec the log is an audit. -/
theorem log_told_by_answer (build : Build) (codec : Codec) (steps : List Step) :
    ∀ turn ∈ turns build steps (fresh build codec), turn.Audited := by
  intro turn mem
  obtain ⟨step, before, -, rfl⟩ :=
    exists_take_of_mem_turns (fun _ _ (h : True) => h) trivial mem
  refine ⟨take_logsAnswer build step before, ?_, ?_⟩
  · intro no_verify no_init
    exact step_log_eq_nil no_verify no_init build before
  · rintro rate mode rfl code
    exact take_explained build rate mode before code

/-- A set-up that is refused for a reason of the codec's own is told to the log in its words, and
another release with its version text as far as the first zero byte. -/
theorem log_told_by_refusal :
    let steps := [.init 48000 .mono, .verify]
    let codec : Codec :=
      { version := some (Text.Utf8.encode "libopus 1.4" ++ [0, 0xFF]), monoSizes := [100],
        initCodes := [-3], texts := [(-3, some (Text.Utf8.encode "boom"))] }
    ∃ first second, turns ⟨.stereo⟩ steps (fresh ⟨.stereo⟩ codec) = [first, second] ∧
      first.LogsOnly .warn [("message", "opus_decoder_init failed"), ("code", "-3"),
        ("message", "boom")] ∧
      first.report.calls = [.size 1, .init 48000 1, .explain (-3)] ∧
      second.LogsOnly .error [("message", "linked libopus is not the pinned release"),
        ("version", "libopus 1.4"), ("pinned", "1.5.2")] := by
  intro steps codec
  let first := Turn.take ⟨.stereo⟩ (.init 48000 .mono) (fresh ⟨.stereo⟩ codec)
  let second := Turn.take ⟨.stereo⟩ .verify first.after
  have taken : turns ⟨.stereo⟩ steps (fresh ⟨.stereo⟩ codec) = [first, second] := rfl
  have audited : ∀ turn ∈ [first, second], turn.Audited :=
    taken ▸ log_told_by_answer ⟨.stereo⟩ codec steps
  refine ⟨first, second, ?_, ?_, ?_, ?_⟩
  · exact taken
  · have refused : first.report.answer = .checked (.error (.initFailed (-3))) := rfl
    have reason : (first.before.explain (-3)).1 = "boom" := by decide
    have code : toString (-3 : Int32).toInt = "-3" := by decide
    have logged := (audited first (by simp)).log
    rw [Turn.LogsAnswer, refused] at logged
    exact reason ▸ code ▸ logged.2
  · decide
  · have version : second.before.version.1 = "libopus 1.4" := by decide
    have other : Release.isPinned first.after.cleared.version.1.toList = false := by decide
    have answered (link : Link) : (Turn.take ⟨.stereo⟩ .verify link).report.answer =
        .checked (link.cleared.verify ⟨.stereo⟩).1 := rfl
    have mismatch : second.report.answer = .checked (.error .versionMismatch) :=
      (answered first.after).trans (by rw [verify_of_not_pinned other])
    have logged := (audited second (by simp)).log
    rw [Turn.LogsAnswer, mismatch] at logged
    exact version ▸ logged.2

end Link

end StaticOpus
