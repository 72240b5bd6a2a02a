import StaticOpus.Proofs.Codec.Turn

/-!
# The storage is handed over only after a fitting size

A codec that sets a decoder up writes to the storage that it is given. Whatever the codec replies,
and however it changes between two steps, it is given the storage only in a set-up, and only when
its latest reply, made in that same set-up about that same decoder, fits the storage.

## Implementation notes

A reply that was given earlier, or about another channel count, says nothing: the codec may have
changed since. The replies that count are those in the exchanges of the turn itself.
-/

namespace StaticOpus

/-- The call gives the codec the storage. -/
def Call.isInit : Call → Bool
  | .init _ _ => true
  | _ => false

namespace Link

/-- The storage is handed over in a turn in no way but the guarded one. -/
structure Turn.Guarded (build : Build) (turn : Turn) : Prop where
  /-- Only a set-up hands the storage over, for the decoder that it is asked for, and only once.
  Right before that the codec has replied to a question for the size of this very decoder, and the
  reply fits the storage. -/
  after_fitting_size : ∀ rate channels, Call.init rate channels ∈ turn.report.calls →
    ∃ mode reply code later, turn.step = .init rate mode ∧ channels = mode.channels ∧
      turn.exchanges =
        ⟨.size channels, .number reply⟩ :: ⟨.init rate channels, .number code⟩ :: later ∧
      (∀ exchange ∈ later, exchange.call.isInit = false) ∧
      0 < reply.toInt ∧ reply.toInt ≤ build.decoderSize ∧
      turn.before.storage.size = build.decoderSize
  /-- No other step hands it over. -/
  only_in_init : (∀ rate mode, turn.step ≠ .init rate mode) →
    ∀ call ∈ turn.report.calls, call.isInit = false
  /-- A build for mono decoders neither checks nor sets up a stereo decoder. -/
  no_stereo_call : build.selected = .mono →
    turn.step = .verify ∨ (∃ rate mode, turn.step = .init rate mode) →
      ∀ call ∈ turn.report.calls, call ≠ .size 2 ∧ ∀ rate, call ≠ .init rate 2

variable {build : Build} {link : Link}

/-- A step that is no set-up makes no call that gives the codec the storage. -/
theorem step_isInit_eq_false {step : Step} (other : ∀ rate mode, step ≠ .init rate mode) :
    ∀ call ∈ (Link.step build step link).1.calls, call.isInit = false := by
  intro call h
  cases step with
  | init rate mode => exact absurd rfl (other rate mode)
  | verify =>
      obtain ⟨-, asked, -, conversed⟩ := verify_conversed build link.cleared
      rw [step_verify, conversed.calls_of_cleared] at h
      rcases List.mem_cons.mp h with rfl | h
      · rfl
      · obtain ⟨mode, -, rfl⟩ := List.mem_map.mp h
        rfl
  | read offset length =>
      rw [step_read] at h
      cases h
  | change change => cases h
  | renew => cases h
  | version =>
      obtain rfl := List.mem_singleton.mp h
      rfl
  | explain code =>
      obtain rfl := List.mem_singleton.mp h
      rfl
  | size mode =>
      obtain rfl := List.mem_singleton.mp h
      rfl

/-- A supported mode of a build for mono decoders is mono. -/
theorem channels_eq_one {mode : Mode} (mono : build.selected = .mono)
    (supported : build.supports mode = true) : mode.channels = 1 := by
  cases mode with
  | mono => rfl
  | stereo =>
      rw [Build.supports_stereo mono] at supported
      cases supported

/-- In a build for mono decoders a verification asks for mono alone. -/
theorem verify_mono (mono : build.selected = .mono) :
    ∀ call ∈ (Link.step build .verify link).1.calls,
      call ≠ .size 2 ∧ ∀ rate, call ≠ .init rate 2 := by
  intro call h
  obtain ⟨-, asked, initial, conversed⟩ := verify_conversed build link.cleared
  rw [step_verify, conversed.calls_of_cleared] at h
  rcases List.mem_cons.mp h with rfl | h
  · simp
  · obtain ⟨mode, hm, rfl⟩ := List.mem_map.mp h
    have one := channels_eq_one mono (Build.mem_supported.mp (initial.subset hm))
    simp [sizeCall, one]

/-- In a build for mono decoders a set-up makes no call about stereo. -/
theorem init_mono (mono : build.selected = .mono) (rate : Int32) (mode : Mode) :
    ∀ call ∈ (Link.step build (.init rate mode) link).1.calls,
      call ≠ .size 2 ∧ ∀ rate, call ≠ .init rate 2 := by
  intro call h
  have setUp := init_setUp build rate mode link.cleared
  rw [step_init, setUp.conversed.calls_of_cleared] at h
  have one := channels_eq_one mono (setUp.supports_of_mem_calls h)
  rcases eq_of_mem_setUpCalls h with rfl | rfl | ⟨code, rfl⟩
  · simp [sizeCall, one]
  · simp [one]
  · simp

/-- A set-up that hands the storage over asks for the size just before, and not again for a set-up
afterwards. -/
theorem setUpCalls_of_handed_over {rate : Int32} {mode : Mode} {result : Except Fault Unit}
    (h : Call.init rate mode.channels ∈ setUpCalls rate mode result) :
    ∃ rest, setUpCalls rate mode result = sizeCall mode :: .init rate mode.channels :: rest ∧
      ∀ call ∈ rest, call.isInit = false := by
  unfold setUpCalls at h ⊢
  split at h
  · exact ⟨[], rfl, by simp⟩
  · next code =>
      refine ⟨[.explain code], rfl, ?_⟩
      intro call mem
      obtain rfl := List.mem_singleton.mp mem
      rfl
  · cases h
  · cases List.mem_singleton.mp h

/-- A set-up hands the storage over only as it is guarded. -/
theorem init_after_fitting_size (selected : link.storage.mode = build.selected) (rate : Int32)
    (mode : Mode) :
    let turn := Turn.take build (.init rate mode) link
    ∀ r channels, Call.init r channels ∈ turn.report.calls →
      r = rate ∧ channels = mode.channels ∧ ∃ reply code later,
        turn.exchanges =
          ⟨.size channels, .number reply⟩ :: ⟨.init rate channels, .number code⟩ :: later ∧
        (∀ exchange ∈ later, exchange.call.isInit = false) ∧
        0 < reply.toInt ∧ reply.toInt ≤ build.decoderSize ∧
        turn.before.storage.size = build.decoderSize := by
  intro turn r channels h
  have setUp := init_setUp build rate mode link.cleared
  have calls : turn.report.calls = setUpCalls rate mode (link.cleared.init build rate mode).1 :=
    setUp.conversed.calls_of_cleared
  rw [calls] at h
  obtain ⟨rfl, rfl⟩ : r = rate ∧ channels = mode.channels := by
    rcases eq_of_mem_setUpCalls h with h | h | ⟨code, h⟩
    · cases h
    · cases h
      exact ⟨rfl, rfl⟩
    · cases h
  have fits := setUp.fits_of_handed_over h
  have size : link.storage.size = build.decoderSize := by
    rw [Storage.size_eq, selected, Build.decoderSize]
  obtain ⟨rest, sequence, harmless⟩ := setUpCalls_of_handed_over h
  let asked := (link.codec.askSize mode).2
  let last := (asked.askInit r).2
  have exchanges : turn.exchanges =
      ⟨.size mode.channels, .number (link.codec.askSize mode).1⟩ ::
        ⟨.init r mode.channels, .number (asked.askInit r).1⟩ :: (last.converse rest).1 := by
    simp only [Turn.exchanges, calls, sequence, Codec.converse_cons, sizeCall, Codec.respond_size,
      Codec.respond_init]
    rfl
  refine ⟨rfl, rfl, _, _, (last.converse rest).1, exchanges, ?_, fits.1, fits.2, size⟩
  intro exchange mem
  exact harmless _ (Codec.call_mem_of_mem_converse mem)

/-- In every session with every codec the storage is handed over in a set-up alone, once, and right
after the codec has reported a size that fits it. -/
theorem handed_over_only_after_fitting_size (build : Build) (codec : Codec) (steps : List Step) :
    ∀ turn ∈ turns build steps (fresh build codec), turn.Guarded build := by
  intro turn h
  have start : (fresh build codec).storage.mode = build.selected := rfl
  obtain ⟨step, before, selected, rfl⟩ :=
    exists_take_of_mem_turns (step_storage_mode build) start h
  constructor
  · intro rate channels called
    by_cases setUp : ∃ own mode, step = .init own mode
    · obtain ⟨own, mode, rfl⟩ := setUp
      obtain ⟨rfl, rfl, reply, code, later, guarded⟩ :=
        init_after_fitting_size selected own mode rate channels called
      exact ⟨mode, reply, code, later, rfl, rfl, guarded⟩
    · have harmless := step_isInit_eq_false (fun own mode h => setUp ⟨own, mode, h⟩) _ called
      cases harmless
  · exact step_isInit_eq_false
  · rintro mono (rfl | ⟨rate, mode, rfl⟩)
    · exact verify_mono mono
    · exact init_mono mono rate mode

/-- A codec whose first report is too large is given the storage once it has changed its mind. -/
theorem handed_over_once_it_fits :
    let steps := [.init 48000 .mono, .change { monoSizes := some [17860] }, .init 48000 .mono]
    ∃ turn ∈ turns ⟨.mono⟩ steps (fresh ⟨.mono⟩ { monoSizes := [17861] }),
      turn.report.calls = [.size 1, .init 48000 1] ∧ turn.Guarded ⟨.mono⟩ := by
  intro steps
  obtain ⟨turn, mem, calls⟩ :
      ∃ turn ∈ turns ⟨.mono⟩ steps (fresh ⟨.mono⟩ { monoSizes := [17861] }),
        turn.report.calls = [.size 1, .init 48000 1] :=
    ⟨_, List.mem_of_getElem? (i := 2) rfl, rfl⟩
  exact ⟨turn, mem, calls, handed_over_only_after_fitting_size _ _ _ turn mem⟩

end Link

end StaticOpus
