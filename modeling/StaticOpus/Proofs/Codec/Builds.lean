import StaticOpus.Proofs.Codec.Outcome

/-!
# Mono decoders in both builds

A build for stereo decoders reserves more room than a build for mono decoders, and sets mono
decoders up in it too. A session about mono decoders takes the same course in both builds. The links
of the two sessions are kept in step: they have the same codec, and the storage of one starts with
the bytes of the other. The builds can be told apart only by a reply between the two sizes of the
storage, which fits one of them, and by the number of available bytes in a refusal.

## Implementation notes

The report of a set-up is told from its outcome and the texts of the codec, so the simulation
compares outcomes alone. Calls, log and storage follow.
-/

namespace StaticOpus

open Fit

/-! ## Reports up to the number of available bytes -/

/-- The fault with another number of available bytes, if it gives one. -/
def Fault.withAvailable (available : Nat) : Fault → Fault
  | .tooSmall mode required _ => .tooSmall mode required available
  | fault => fault

/-- The entry with another number of available bytes, if it gives one. -/
def Event.withAvailable (available : Nat) : Event → Event
  | .storageTooSmall mode required _ => .storageTooSmall mode required available
  | event => event

namespace Link

/-- The answer with another number of available bytes, if it gives one. -/
def Answer.withAvailable (available : Nat) : Answer → Answer
  | .checked result => .checked (result.mapError (Fault.withAvailable available))
  | answer => answer

/-- The report with another number of available bytes wherever it gives one. -/
def Report.withAvailable (available : Nat) (report : Report) : Report where
  answer := report.answer.withAvailable available
  calls := report.calls
  log := report.log.map (Event.withAvailable available)

theorem setUpCalls_mapError (rate : Int32) (mode : Mode) (result : Except Fault Unit)
    (available : Nat) :
    setUpCalls rate mode (result.mapError (Fault.withAvailable available)) =
      setUpCalls rate mode result := by
  rcases result with fault | done
  · cases fault <;> rfl
  · rfl

theorem setUpStorage_mapError (rate : Int32) (mode : Mode) (storage : Storage)
    (result : Except Fault Unit) (available : Nat) :
    setUpStorage rate mode storage (result.mapError (Fault.withAvailable available)) =
      setUpStorage rate mode storage result := by
  cases result <;> rfl

theorem entries_mapError (link : Link) (result : Except Fault Unit) (available : Nat) :
    link.entries (result.mapError (Fault.withAvailable available)) =
      (link.entries result).map (Event.withAvailable available) := by
  rcases result with fault | done
  · cases fault <;> rfl
  · rfl

/-! ## Two set-ups -/

variable {link : Link} {rate : Int32} {mode : Mode}

theorem setUpReport_mapError (result : Except Fault Unit) (available : Nat) :
    link.setUpReport rate mode (result.mapError (Fault.withAvailable available)) =
      (link.setUpReport rate mode result).withAvailable available := by
  simp only [setUpReport, setUpCalls_mapError, entries_mapError]
  rfl

theorem outcome_mapError (code : Int32) (available : Nat) :
    outcome code = (outcome code).mapError (Fault.withAvailable available) := by
  unfold outcome
  split <;> rfl

/-- Whatever a set-up comes to, it keeps a block and a wider one that starts with its bytes so. -/
theorem setUpStorage_prefix {storage wider : Storage} (h : storage.bytes <+: wider.bytes)
    (rate : Int32) (mode : Mode) (result : Except Fault Unit) :
    (setUpStorage rate mode storage result).bytes <+:
      (setUpStorage rate mode wider result).bytes := by
  cases result with
  | error fault => exact h
  | ok done =>
      have room : 0 + (decoderState rate mode).length ≤ storage.size := storage.eight_le_size
      obtain ⟨written, widerWritten, write, widerWrite, still⟩ :=
        Storage.exists_write?_wide h room
      simp only [setUpStorage, write, widerWrite, Option.getD_some]
      exact still

end Link

/-! ## Replies that divide the builds -/

/-- A reply about mono decoders that fits the storage of one build but not that of the other. -/
def Fit.Divides (reply : Int32) : Prop :=
  Mode.mono.storageSize < reply.toInt ∧ reply.toInt ≤ Mode.stereo.storageSize

instance (reply : Int32) : Decidable (Fit.Divides reply) := inferInstanceAs (Decidable (_ ∧ _))

/-- No reply of the stream divides the builds. -/
def Replies.Undivided (replies : Replies) : Prop := ∀ reply ∈ replies, ¬ Fit.Divides reply

instance (replies : Replies) : Decidable replies.Undivided :=
  List.decidableBAll (fun reply => ¬ Fit.Divides reply) replies

theorem Replies.Undivided.next {replies : Replies} (h : replies.Undivided) :
    ¬ Fit.Divides ((Replies.next replies).1.getD 0) := by
  match replies with
  | [] => exact fun divides => absurd divides.1 (by decide)
  | [reply] => exact h reply (by simp)
  | reply :: _ :: _ => exact h reply (by simp)

/-- What a codec replies after some calls it has had to reply before them. -/
theorem Codec.mem_sizes_of_mem_converse {listed : Int32} {mode : Mode} {calls : List Call}
    {codec : Codec} (h : listed ∈ (codec.converse calls).2.sizes mode) :
    listed ∈ codec.sizes mode := by
  induction calls generalizing codec with
  | nil => exact h
  | cons call rest ih =>
      have after : listed ∈ (codec.respond call).2.sizes mode := ih h
      cases call with
      | version => exact after
      | explain code => exact after
      | init rate channels => cases mode <;> exact after
      | size channels =>
          simp only [respond] at after
          split at after
          · exact mem_sizes_of_mem_askSize after
          · exact after

namespace Link

variable {link wide : Link} {rate : Int32} {mode : Mode}

/-- A step that means the same in both builds: it is about mono decoders or none, and about bytes
that both builds have. -/
def Step.Common : Step → Prop
  | .change new => ∀ replies, new.monoSizes = some replies → replies.Undivided
  | .verify => False
  | .init _ mode => mode = .mono
  | .read offset length => offset + length ≤ Mode.mono.storageSize
  | .version | .explain _ | .size _ | .renew => True

/-- The second link is one of a build for stereo decoders that is in step with the first, of a build
for mono decoders: it has the same codec, and its storage starts with the same bytes. -/
structure InStep (link wide : Link) : Prop where
  codec : wide.codec = link.codec
  mono : link.storage.mode = .mono
  stereo : wide.storage.mode = .stereo
  bytes : link.storage.bytes <+: wide.storage.bytes

theorem inStep_fresh (codec : Codec) : InStep (fresh ⟨.mono⟩ codec) (fresh ⟨.stereo⟩ codec) where
  codec := rfl
  mono := rfl
  stereo := rfl
  bytes := ⟨List.replicate (Mode.stereo.storageSize - Mode.mono.storageSize) 0,
    List.replicate_append_replicate⟩

/-- The two reports are the same, except that the number of available bytes in a refusal is the size
of the build's own storage. -/
structure Report.SameButAvailable (report wide : Report) : Prop where
  widened : wide = report.withAvailable Mode.stereo.storageSize
  narrowed : report = wide.withAvailable Mode.mono.storageSize

/-- Two reports of set-ups are the same but for the available bytes if their outcomes are. -/
theorem setUpReport_sameButAvailable (same : wide.codec = link.codec)
    {result wideResult : Except Fault Unit}
    (widened : wideResult = result.mapError (Fault.withAvailable Mode.stereo.storageSize))
    (narrowed : result = wideResult.mapError (Fault.withAvailable Mode.mono.storageSize)) :
    (link.setUpReport rate mode result).SameButAvailable
      (wide.setUpReport rate mode wideResult) where
  widened := by rw [setUpReport_congr same, widened, setUpReport_mapError]
  narrowed := by rw [setUpReport_congr same, ← setUpReport_mapError, ← narrowed]

namespace InStep

variable {step : Step}

/-- A set-up whose reply fits both storages is reported in the same way in both builds. -/
theorem init_of_fits (h : InStep link wide) (rate : Int32)
    (fits : Fits ⟨.mono⟩ (link.codec.askSize .mono).1) :
    (Link.step ⟨.stereo⟩ (.init rate .mono) wide).1 =
      (Link.step ⟨.mono⟩ (.init rate .mono) link).1 := by
  have wider : Fits ⟨.stereo⟩ (wide.codec.askSize .mono).1 := by
    rw [h.codec]
    exact ⟨fits.1, Int.le_trans fits.2 (by decide)⟩
  rw [step_init_report (init_answer_of_fits rfl fits),
    step_init_report (init_answer_of_fits rfl wider), h.codec, setUpReport_congr h.codec]

/-- A set-up comes to the same in both builds, unless the reply divides them. -/
theorem init_sameButAvailable (h : InStep link wide) (rate : Int32)
    (undivided : ¬ Divides (link.codec.askSize .mono).1) :
    (Link.step ⟨.mono⟩ (.init rate .mono) link).1.SameButAvailable
      (Link.step ⟨.stereo⟩ (.init rate .mono) wide).1 := by
  by_cases fits : Fits ⟨.mono⟩ (link.codec.askSize .mono).1
  · rw [h.init_of_fits rate fits, step_init_report (init_answer_of_fits rfl fits)]
    exact setUpReport_sameButAvailable rfl (outcome_mapError _ _) (outcome_mapError _ _)
  · have asked : (wide.codec.askSize .mono).1 = (link.codec.askSize .mono).1 := by rw [h.codec]
    rcases not_fits_iff.mp fits with small | large
    · rw [step_init_report (init_answer_of_not_positive rfl rfl small),
        step_init_report (init_answer_of_not_positive rfl asked small)]
      exact setUpReport_sameButAvailable h.codec rfl rfl
    · have larger : (Mode.stereo.storageSize : Int) < (link.codec.askSize .mono).1.toInt :=
        Int.not_le.mp fun most => undivided ⟨large, most⟩
      rw [step_init_report (init_answer_of_large rfl rfl large),
        step_init_report (init_answer_of_large rfl asked larger)]
      exact setUpReport_sameButAvailable h.codec rfl rfl

/-- Every common step is reported in the same way in both builds, but for the available bytes. -/
theorem sameButAvailable (h : InStep link wide) (undivided : link.codec.monoSizes.Undivided)
    (common : step.Common) :
    (Link.step ⟨.mono⟩ step link).1.SameButAvailable (Link.step ⟨.stereo⟩ step wide).1 := by
  cases step with
  | verify => exact common.elim
  | init rate mode =>
      obtain rfl : mode = .mono := common
      exact h.init_sameButAvailable rate undivided.next
  | read offset length =>
      have room : offset + length ≤ link.storage.size := by
        rw [Storage.size_eq, h.mono]
        exact common
      rw [step_read, step_read, Storage.read?_wide h.bytes room]
      cases link.storage.read? offset length <;> exact ⟨rfl, rfl⟩
  | change new => exact ⟨rfl, rfl⟩
  | renew => exact ⟨rfl, rfl⟩
  | _ =>
      -- what is left only asks the codec, which is the same one
      obtain ⟨codec, _, _, _⟩ := link
      obtain ⟨other, _, _, _⟩ := wide
      obtain rfl : other = codec := h.codec
      exact ⟨rfl, rfl⟩

/-- Links that report a step alike are in step after it. -/
theorem after (h : InStep link wide)
    (same : (Link.step ⟨.mono⟩ step link).1.SameButAvailable (Link.step ⟨.stereo⟩ step wide).1) :
    InStep (Link.step ⟨.mono⟩ step link).2 (Link.step ⟨.stereo⟩ step wide).2 := by
  have calls : (Link.step ⟨.stereo⟩ step wide).1.calls = (Link.step ⟨.mono⟩ step link).1.calls := by
    rw [same.widened]
    rfl
  refine ⟨?_, step_storage_mode ⟨.mono⟩ step link h.mono,
    step_storage_mode ⟨.stereo⟩ step wide h.stereo, ?_⟩
  · -- a change is made to both codecs alike, and any other step puts the same calls to both
    by_cases changes : ∃ new, step = .change new
    · obtain ⟨new, rfl⟩ := changes
      exact congrArg (Codec.apply new) h.codec
    · have quiet : ∀ new, step ≠ .change new := fun new h => changes ⟨new, h⟩
      rw [(step_conversed quiet ⟨.mono⟩ link).codec_eq,
        (step_conversed quiet ⟨.stereo⟩ wide).codec_eq, calls]
      exact congrArg (fun codec => (Codec.converse _ codec).2) h.codec
  · rw [step_storage, step_storage, same.widened]
    cases step with
    | renew => exact (inStep_fresh link.codec).bytes
    | init rate mode =>
        simp only [step_init, Report.withAvailable, Answer.withAvailable, storageAfter,
          setUpStorage_mapError]
        exact setUpStorage_prefix h.bytes rate mode _
    | _ => exact h.bytes

end InStep

/-- No common step gives the codec a reply that divides the builds. -/
theorem undivided_step {build : Build} {step : Step} (common : step.Common)
    (h : link.codec.monoSizes.Undivided) :
    (Link.step build step link).2.codec.monoSizes.Undivided := by
  by_cases changes : ∃ new, step = .change new
  · obtain ⟨new, rfl⟩ := changes
    have installed : (Link.step build (.change new) link).2.codec.monoSizes =
        new.monoSizes.getD link.codec.monoSizes := rfl
    rw [installed]
    cases given : new.monoSizes with
    | none => exact h
    | some replies => exact common replies given
  · intro reply listed
    have quiet : ∀ new, step ≠ .change new := fun new h => changes ⟨new, h⟩
    rw [(step_conversed quiet build link).codec_eq] at listed
    have already : reply ∈ link.codec.sizes .mono := Codec.mem_sizes_of_mem_converse listed
    exact h reply already

/-- Links in step stay so through every session of common steps, and report it in the same way but
for the available bytes. -/
theorem InStep.run {steps : List Step} (h : InStep link wide)
    (undivided : link.codec.monoSizes.Undivided) (common : ∀ step ∈ steps, step.Common) :
    let reports := (Link.run ⟨.mono⟩ steps link).1
    let wideReports := (Link.run ⟨.stereo⟩ steps wide).1
    wideReports = reports.map (·.withAvailable Mode.stereo.storageSize) ∧
      reports = wideReports.map (·.withAvailable Mode.mono.storageSize) := by
  induction steps generalizing link wide with
  | nil => exact ⟨rfl, rfl⟩
  | cons first rest ih =>
      have here := h.sameButAvailable undivided (common first (by simp))
      obtain ⟨widened, narrowed⟩ := ih (h.after here)
        (undivided_step (common first (by simp)) undivided)
        (fun step mem => common step (by simp [mem]))
      simp only [Link.run, List.map_cons]
      refine ⟨?_, ?_⟩
      · rw [← widened, ← here.widened]
      · rw [← narrowed, ← here.narrowed]

/-- Mono decoders in both builds. Every session of common steps, with a codec that never divides the
builds, is reported step by step in the same way in both: by the same answers, calls and entries,
except that a refusal for the size gives 17860 available bytes in one and 26580 in the other.
Whatever its codec replies, a set-up of a mono decoder that the codec has ended in the build for
mono decoders ends in the same way on a link in step with it, and leaves the two in step. -/
theorem mono_decoders_same_in_builds :
    (∀ (codec : Codec) (steps : List Step), codec.monoSizes.Undivided →
      (∀ step ∈ steps, step.Common) →
        let reports := (run ⟨.mono⟩ steps (fresh ⟨.mono⟩ codec)).1
        let wideReports := (run ⟨.stereo⟩ steps (fresh ⟨.stereo⟩ codec)).1
        wideReports = reports.map (·.withAvailable 26580) ∧
          reports = wideReports.map (·.withAvailable 17860)) ∧
    ∀ link wide, InStep link wide → ∀ rate,
      let taken := Link.step ⟨.mono⟩ (.init rate .mono) link
      let wideTaken := Link.step ⟨.stereo⟩ (.init rate .mono) wide
      taken.1.EndedByCodec → wideTaken.1 = taken.1 ∧ InStep taken.2 wideTaken.2 := by
  refine ⟨?_, ?_⟩
  · intro codec steps undivided common
    exact (inStep_fresh codec).run undivided common
  · intro link wide h rate taken wideTaken ended
    have fits : Fits ⟨.mono⟩ (link.codec.askSize .mono).1 := fits_of_endedByCodec ended
    refine ⟨h.init_of_fits rate fits, h.after (h.init_sameButAvailable rate ?_)⟩
    exact fun divides => absurd fits.2 (Int.not_le.mpr divides.1)

/-- A codec that is too large for both builds, and then refuses to set a decoder up. -/
theorem large_mono_decoder_in_builds :
    let codec : Codec := { monoSizes := [26581], initCodes := [-3] }
    let small : Codec := { monoSizes := [17860], initCodes := [-3] }
    let steps : List Step :=
      [.init 48000 .mono, .change { monoSizes := some [17860] }, .init 48000 .mono]
    (run ⟨.stereo⟩ steps (fresh ⟨.stereo⟩ codec)).1.map (·.answer) =
        [.checked (.error (.tooSmall .mono 26581 26580)), .done,
          .checked (.error (.initFailed (-3)))] ∧
      (Link.step ⟨.stereo⟩ (.init 48000 .mono) (fresh ⟨.stereo⟩ small)).1 =
        (Link.step ⟨.mono⟩ (.init 48000 .mono) (fresh ⟨.mono⟩ small)).1 := by
  intro codec small steps
  have undivided : codec.monoSizes.Undivided := by decide
  have installed : ∀ replies, some [17860] = some replies → Replies.Undivided replies := by
    rintro replies ⟨⟩
    decide
  have common : ∀ step ∈ steps, step.Common := by
    simpa [steps, Step.Common] using installed
  obtain ⟨widened, -⟩ := mono_decoders_same_in_builds.1 codec steps undivided common
  have ended : (Link.step ⟨.mono⟩ (.init 48000 .mono) (fresh ⟨.mono⟩ small)).1.EndedByCodec :=
    Or.inr ⟨-3, rfl⟩
  refine ⟨?_, (mono_decoders_same_in_builds.2 _ _ (inStep_fresh small) 48000 ended).1⟩
  rw [widened]
  rfl

end Link

end StaticOpus
