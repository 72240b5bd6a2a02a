import StaticOpus.Proofs.Codec.Conversation
import StaticOpus.Proofs.Fit
import StaticOpus.Proofs.Storage

/-!
# What a verification and a set-up can do

Each operation on a link is described once: which calls it can make, and how it can end. A
verification asks for the version and then for sizes. A set-up ends in one of four ways, and hands
the storage over only in the two that come after a fitting size.
-/

namespace StaticOpus.Link

open Fit

variable {build : Build} {link : Link}

/-- A round of checks asks for the sizes of some first modes of its list, and for nothing else. -/
theorem checkModes_conversed {modes : List Mode}
    (supported : ∀ mode ∈ modes, build.supports mode = true) (link : Link) :
    let round := checkModes build askSize modes link
    round.reporter.storage = link.storage ∧
      ∃ asked, asked <+: modes ∧ Conversed link (asked.map sizeCall) round.reporter := by
  induction modes generalizing link with
  | nil => exact ⟨rfl, [], List.prefix_rfl, .refl link⟩
  | cons mode modes ih =>
      have here : build.supports mode = true := supported mode (by simp)
      have first := link.conversed_askSize mode
      by_cases fits : Fits build (link.askSize mode).1
      · rw [checkModes_cons_of_fits here fits]
        obtain ⟨kept, asked, initial, rest⟩ :=
          ih (fun other h => supported other (by simp [h])) (link.askSize mode).2
        exact ⟨kept, mode :: asked, (List.cons_prefix_cons.mpr ⟨rfl, initial⟩), first.trans rest⟩
      · rw [checkModes_cons_of_not_fits here fits]
        exact ⟨rfl, [mode], (List.cons_prefix_cons.mpr ⟨rfl, List.nil_prefix⟩), first⟩

/-- A codec of the pinned release is asked for the sizes of the supported modes. -/
theorem verify_of_pinned (pinned : Release.isPinned link.version.1.toList = true) :
    link.verify build =
      let round := Fit.verify build askSize link.version.2
      (round.checked.result, round.reporter.noteEvents round.checked.log) := by
  simp only [verify, Release.check, if_pos pinned, noteEvents_nil]

/-- A codec of another release is not asked for any size. -/
theorem verify_of_not_pinned (other : Release.isPinned link.version.1.toList = false) :
    link.verify build =
      (.error .versionMismatch,
        link.version.2.noteEvents [.otherRelease link.version.1 Release.pinned]) := by
  simp [verify, Release.check, other]

/-- A verification leaves the storage alone. It asks for the version, and then for the sizes of some
first modes of those that the build supports. -/
theorem verify_conversed (build : Build) (link : Link) :
    (link.verify build).2.storage = link.storage ∧
      ∃ asked, asked <+: build.supported ∧
        Conversed link (.version :: asked.map sizeCall) (link.verify build).2 := by
  have first := link.conversed_version
  cases pinned : Release.isPinned link.version.1.toList with
  | true =>
      rw [verify_of_pinned pinned]
      obtain ⟨kept, asked, initial, rest⟩ := checkModes_conversed
        (fun _ h => Build.mem_supported.mp h) link.version.2
      exact ⟨kept, asked, initial, (first.trans rest).noteEvents _⟩
  | false =>
      rw [verify_of_not_pinned pinned]
      exact ⟨rfl, [], List.nil_prefix, first.noteEvents _⟩

/-- The ways in which a set-up can end, with the link that each leaves behind. -/
inductive SetUp (build : Build) (rate : Int32) (mode : Mode) (link : Link) :
    Except Fault Unit → Link → Prop
  /-- The build has no room for the mode, and the codec is not asked. -/
  | unsupported (h : build.supports mode = false) :
      SetUp build rate mode link (.error (.unsupported mode)) link
  /-- What the codec reports is no size. -/
  | noSize {reply : Int32} (h : build.supports mode = true)
      (asked : (link.codec.askSize mode).1 = reply) (small : reply.toInt ≤ 0) :
      SetUp build rate mode link (.error (.invalidSize reply)) (link.askSize mode).2
  /-- The codec reports more than the storage holds. -/
  | tooLarge {reply : Int32} (h : build.supports mode = true)
      (asked : (link.codec.askSize mode).1 = reply)
      (large : (build.decoderSize : Int) < reply.toInt) :
      SetUp build rate mode link (.error (.tooSmall mode reply.toInt.toNat build.decoderSize))
        ((link.askSize mode).2.noteEvents
          [.storageTooSmall mode reply.toInt.toNat build.decoderSize])
  /-- The codec takes the storage. -/
  | done (h : build.supports mode = true) (fits : Fits build (link.codec.askSize mode).1)
      (taken : ((link.askSize mode).2.handOver rate mode).1 = Codec.ok) :
      SetUp build rate mode link (.ok ()) ((link.askSize mode).2.handOver rate mode).2
  /-- The codec refuses the storage, and is asked for the reason. -/
  | failed {code : Int32} {text : String} (h : build.supports mode = true)
      (fits : Fits build (link.codec.askSize mode).1)
      (code_eq : ((link.askSize mode).2.handOver rate mode).1 = code) (refused : code ≠ Codec.ok)
      (text_eq : (((link.askSize mode).2.handOver rate mode).2.explain code).1 = text) :
      SetUp build rate mode link (.error (.initFailed code))
        ((((link.askSize mode).2.handOver rate mode).2.explain code).2.noteEvents
          [.initFailed code text])

/-- A set-up decides about the reply to its question as one check of that reply does. -/
theorem init_eq (build : Build) (rate : Int32) (mode : Mode) (link : Link) :
    link.init build rate mode =
      if build.supports mode then
        match checkReply build mode (link.askSize mode).1 with
        | ⟨.error fault, log⟩ => (.error fault, (link.askSize mode).2.noteEvents log)
        | ⟨.ok (), log⟩ =>
          let (code, link) := ((link.askSize mode).2.noteEvents log).handOver rate mode
          if code = Codec.ok then (.ok (), link)
          else
            let (text, link) := link.explain code
            (.error (.initFailed code), link.noteEvents [.initFailed code text])
      else (.error (.unsupported mode), link) := by
  simp only [init, size, checkReply]
  cases sizeOfReply (link.askSize mode).1 with
  | error fault => simp only [noteEvents_nil]
  | ok size => rfl

/-- Every set-up ends in one of these ways. -/
theorem init_setUp (build : Build) (rate : Int32) (mode : Mode) (link : Link) :
    SetUp build rate mode link (link.init build rate mode).1 (link.init build rate mode).2 := by
  rw [init_eq]
  by_cases supported : build.supports mode = true
  · rw [if_pos supported]
    by_cases fits : Fits build (link.askSize mode).1
    · simp only [checkReply_of_fits supported fits, noteEvents_nil]
      split
      · exact .done supported fits ‹_›
      · exact .failed supported fits rfl ‹_› rfl
    · rcases not_fits_iff.mp fits with small | large
      · simp only [checkReply_of_not_positive small, noteEvents_nil]
        exact .noSize supported rfl small
      · simp only [checkReply_of_large supported large]
        exact .tooLarge supported rfl large
  · rw [if_neg supported]
    exact .unsupported (by simpa using supported)

/-- The calls of a set-up can be told from its result. -/
def setUpCalls (rate : Int32) (mode : Mode) : Except Fault Unit → List Call
  | .ok () => [sizeCall mode, .init rate mode.channels]
  | .error (.initFailed code) => [sizeCall mode, .init rate mode.channels, .explain code]
  | .error (.unsupported _) => []
  | .error _ => [sizeCall mode]

theorem eq_of_mem_setUpCalls {rate : Int32} {mode : Mode} {result : Except Fault Unit} {call : Call}
    (h : call ∈ setUpCalls rate mode result) :
    call = sizeCall mode ∨ call = .init rate mode.channels ∨ ∃ code, call = .explain code := by
  unfold setUpCalls at h
  split at h
  · rcases List.mem_cons.mp h with rfl | h
    · exact Or.inl rfl
    · exact Or.inr (Or.inl (List.mem_singleton.mp h))
  · rcases List.mem_cons.mp h with rfl | h
    · exact Or.inl rfl
    · rcases List.mem_cons.mp h with rfl | h
      · exact Or.inr (Or.inl rfl)
      · exact Or.inr (Or.inr ⟨_, List.mem_singleton.mp h⟩)
  · cases h
  · exact Or.inl (List.mem_singleton.mp h)

/-- So can what it leaves in the storage: only a set-up that succeeds writes there. -/
def setUpStorage (rate : Int32) (mode : Mode) (storage : Storage) : Except Fault Unit → Storage
  | .ok () => (storage.write? 0 (decoderState rate mode)).getD storage
  | .error _ => storage

theorem setUpStorage_mode (rate : Int32) (mode : Mode) (storage : Storage)
    (result : Except Fault Unit) :
    (setUpStorage rate mode storage result).mode = storage.mode := by
  cases result with
  | error fault => rfl
  | ok done =>
      unfold setUpStorage
      cases written : storage.write? 0 (decoderState rate mode) with
      | none => rfl
      | some after => exact Storage.mode_of_write? written

namespace SetUp

variable {rate : Int32} {mode : Mode} {result : Except Fault Unit} {after : Link}

theorem conversed (h : SetUp build rate mode link result after) :
    Conversed link (setUpCalls rate mode result) after := by
  have asked := link.conversed_askSize mode
  have handed := asked.trans ((link.askSize mode).2.conversed_handOver rate mode)
  cases h with
  | unsupported => exact .refl link
  | noSize => exact asked
  | tooLarge => exact asked.noteEvents _
  | done => exact handed
  | failed => exact (handed.trans (conversed_explain _ _)).noteEvents _

/-- For a mode that the build does not support the codec is not called at all. -/
theorem supports_of_mem_calls (h : SetUp build rate mode link result after) {call : Call}
    (called : call ∈ setUpCalls rate mode result) : build.supports mode = true := by
  cases h with
  | unsupported => cases called
  | noSize supported => exact supported
  | tooLarge supported => exact supported
  | done supported => exact supported
  | failed supported => exact supported

/-- The codec is given the storage only after a reply that fits. -/
theorem fits_of_handed_over (h : SetUp build rate mode link result after)
    (handed : Call.init rate mode.channels ∈ setUpCalls rate mode result) :
    Fits build (link.codec.askSize mode).1 := by
  cases h with
  | unsupported => simp [setUpCalls] at handed
  | noSize => simp [setUpCalls, sizeCall] at handed
  | tooLarge => simp [setUpCalls, sizeCall] at handed
  | done _ fits _ => exact fits
  | failed _ fits _ _ _ => exact fits

theorem storage_eq (h : SetUp build rate mode link result after) :
    after.storage = setUpStorage rate mode link.storage result := by
  cases h with
  | unsupported => rfl
  | noSize => rfl
  | tooLarge => rfl
  | done _ _ taken => exact if_pos taken
  | failed _ _ code_eq refused _ =>
      subst code_eq
      exact if_neg refused

end SetUp

end StaticOpus.Link
