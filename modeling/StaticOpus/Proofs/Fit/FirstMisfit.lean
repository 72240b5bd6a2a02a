import StaticOpus.Proofs.Fit

/-!
# A verification ends at the first misfit

A verification asks a reporter about one supported mode after the other, for as long as the replies
fit. The first reply that does not fit is the last one that is asked for, and it alone makes the
fault. What the reporter would have said after that has no effect on anything.

## Implementation notes

A reporter may change with every question, so its replies are told by an interview: it is asked
about some modes in turn, whatever it says. A round of checks is an interview that may break off.
-/

namespace StaticOpus.Fit

variable {build : Build} {σ : Type} {ask : Mode → σ → Int32 × σ} {modes : List Mode} {reporter : σ}

/-! ## Interviews -/

/-- The replies of a reporter that is asked about some modes in turn, and the reporter after them. -/
def interview (ask : Mode → σ → Int32 × σ) : List Mode → σ → List Int32 × σ
  | [], reporter => ([], reporter)
  | mode :: modes, reporter =>
    let (reply, reporter) := ask mode reporter
    let (replies, reporter) := interview ask modes reporter
    (reply :: replies, reporter)

theorem interview_append (ask : Mode → σ → Int32 × σ) (first second : List Mode) (reporter : σ) :
    interview ask (first ++ second) reporter =
      let after := (interview ask first reporter).2
      ((interview ask first reporter).1 ++ (interview ask second after).1,
        (interview ask second after).2) := by
  induction first generalizing reporter with
  | nil => rfl
  | cons mode modes ih => simp [interview, ih]

theorem replies_concat (ask : Mode → σ → Int32 × σ) (earlier : List Mode) (mode : Mode)
    (reporter : σ) :
    (interview ask (earlier ++ [mode]) reporter).1 =
      (interview ask earlier reporter).1 ++ [(ask mode (interview ask earlier reporter).2).1] := by
  rw [interview_append]
  rfl

/-- Every question of an interview gets a reply. -/
theorem length_interview (ask : Mode → σ → Int32 × σ) (modes : List Mode) (reporter : σ) :
    (interview ask modes reporter).1.length = modes.length := by
  induction modes generalizing reporter with
  | nil => rfl
  | cons mode modes ih => simp [interview, ih]

/-! ## Courses of a round -/

/-- The ways in which a round of checks can end, with the modes that have been asked about. -/
inductive Course (build : Build) (ask : Mode → σ → Int32 × σ) (modes : List Mode) (reporter : σ) :
    List Mode → Round σ → Prop
  /-- Every reply fits. -/
  | passed (fits : ∀ reply ∈ (interview ask modes reporter).1, Fits build reply) :
      Course build ask modes reporter modes ⟨⟨.ok (), []⟩, (interview ask modes reporter).2⟩
  /-- The replies up to some mode fit, and the reply about that one does not. -/
  | stopped {earlier later : List Mode} {mode : Mode} {reply : Int32}
      (split : modes = earlier ++ mode :: later)
      (fits : ∀ reply ∈ (interview ask earlier reporter).1, Fits build reply)
      (replied : (ask mode (interview ask earlier reporter).2).1 = reply)
      (misfit : ¬ Fits build reply) :
      Course build ask modes reporter (earlier ++ [mode])
        ⟨checkReply build mode reply, (ask mode (interview ask earlier reporter).2).2⟩

/-- As long as the replies fit a round of checks is an interview. -/
theorem checkModes_append_of_fits {earlier later : List Mode}
    (supported : ∀ mode ∈ earlier, build.supports mode = true)
    (fits : ∀ reply ∈ (interview ask earlier reporter).1, Fits build reply) :
    checkModes build ask (earlier ++ later) reporter =
      checkModes build ask later (interview ask earlier reporter).2 := by
  induction earlier generalizing reporter with
  | nil => rfl
  | cons mode earlier ih =>
      rw [List.forall_mem_cons] at supported
      obtain ⟨here, rest⟩ := List.forall_mem_cons.mp fits
      rw [List.cons_append, checkModes_cons_of_fits supported.1 here]
      exact ih supported.2 rest

theorem Course.eq_checkModes {asked : List Mode} {round : Round σ}
    (h : Course build ask modes reporter asked round)
    (supported : ∀ mode ∈ modes, build.supports mode = true) :
    checkModes build ask modes reporter = round := by
  cases h with
  | passed fits =>
      have whole : checkModes build ask (modes ++ []) reporter = _ :=
        checkModes_append_of_fits supported fits
      rwa [List.append_nil] at whole
  | stopped split fits replied misfit =>
      subst split replied
      rw [checkModes_append_of_fits (fun mode mem => supported mode (by simp [mem])) fits]
      exact checkModes_cons_of_not_fits (supported _ (by simp)) misfit

/-- Every round of checks ends in one of these ways. -/
theorem exists_course (build : Build) (ask : Mode → σ → Int32 × σ) (modes : List Mode)
    (reporter : σ) : ∃ asked round, Course build ask modes reporter asked round := by
  -- on the modes still to be asked about; each question leaves another reporter for the rest
  induction modes generalizing reporter with
  | nil => exact ⟨_, _, .passed (by simp [interview])⟩
  | cons mode modes ih =>
      by_cases fits : Fits build (ask mode reporter).1
      · obtain ⟨asked, round, course⟩ := ih (ask mode reporter).2
        cases course with
        | passed rest => exact ⟨_, _, .passed (List.forall_mem_cons.mpr ⟨fits, rest⟩)⟩
        | @stopped earlier later _ _ split rest replied misfit =>
            have split : mode :: modes = (mode :: earlier) ++ _ :: later :=
              congrArg (List.cons mode) split
            exact ⟨_, _, .stopped split (List.forall_mem_cons.mpr ⟨fits, rest⟩) replied misfit⟩
      · have split : mode :: modes = [] ++ mode :: modes := rfl
        exact ⟨_, _, .stopped split (by simp [interview]) rfl fits⟩

/-- A verification of any reporter is a course through the supported modes. -/
theorem verify_course (build : Build) (ask : Mode → σ → Int32 × σ) (reporter : σ) :
    ∃ asked, Course build ask build.supported reporter asked (verify build ask reporter) := by
  obtain ⟨asked, round, course⟩ := exists_course build ask build.supported reporter
  have ended : verify build ask reporter = round :=
    course.eq_checkModes fun _ => Build.mem_supported.mp
  exact ⟨asked, ended ▸ course⟩

namespace Course

variable {asked : List Mode} {round : Round σ}

theorem asked_prefix (h : Course build ask modes reporter asked round) : asked <+: modes := by
  cases h with
  | passed => exact List.prefix_rfl
  | @stopped earlier later mode _ split =>
      exact ⟨later, by rw [split, List.append_assoc, List.singleton_append]⟩

/-- The reporter after a round has been asked just the questions of the round. -/
theorem reporter_eq (h : Course build ask modes reporter asked round) :
    round.reporter = (interview ask asked reporter).2 := by
  cases h with
  | passed => rfl
  | stopped => rw [interview_append]; rfl

/-- A reporter that gives the same replies to the questions that are asked is led through the same
course, whatever it would reply to others. -/
theorem replay {τ : Type} {other : Mode → τ → Int32 × τ} {second : τ}
    (h : Course build ask modes reporter asked round)
    (same : (interview other asked second).1 = (interview ask asked reporter).1) :
    Course build other modes second asked ⟨round.checked, (interview other asked second).2⟩ := by
  cases h with
  | passed fits => exact .passed (same ▸ fits)
  | stopped split fits replied misfit =>
      rw [replies_concat, replies_concat] at same
      obtain ⟨earlier, last⟩ := List.append_inj' same rfl
      rw [interview_append]
      exact .stopped split (earlier ▸ fits) ((List.cons.inj last).1.trans replied) misfit

end Course

/-! ## Reporters that do not change -/

/-- A reporter that gives this reply about one mode, and about each other one a reply that fits. -/
def inDoubt (mode : Mode) (reply : Int32) (other : Mode) (_ : Unit) : Int32 × Unit :=
  (if other = mode then reply else 1, ())

theorem interview_inDoubt (mode : Mode) (reply : Int32) (modes : List Mode) :
    interview (inDoubt mode reply) modes () =
      (modes.map fun other => if other = mode then reply else 1, ()) := by
  induction modes with
  | nil => rfl
  | cons other modes ih => simp [interview, ih, inDoubt]

theorem fits_one (build : Build) : Fits build 1 := by
  have room := build.selected.storageSize_pos
  exact ⟨by decide, Int.ofNat_le.mpr room⟩

/-- Where one reply alone is in doubt a verification is the check of that reply. -/
theorem verify_inDoubt {mode : Mode} (supported : build.supports mode = true) (reply : Int32) :
    (verify build (inDoubt mode reply) ()).checked = checkReply build mode reply := by
  have all_supported : ∀ mode ∈ build.supported, build.supports mode = true :=
    fun _ => Build.mem_supported.mp
  by_cases fits : Fits build reply
  · have all_fit : ∀ given ∈ (interview (inDoubt mode reply) build.supported ()).1,
        Fits build given := by
      rw [interview_inDoubt, List.forall_mem_map]
      intro other _
      split
      · exact fits
      · exact fits_one build
    rw [checkReply_of_fits supported fits]
    exact congrArg Round.checked ((Course.passed all_fit).eq_checkModes all_supported)
  · -- no mode before this one gets the reply in doubt, so the round comes as far as this one
    obtain ⟨earlier, later, split, before⟩ :=
      List.eq_append_cons_of_mem (Build.mem_supported.mpr supported)
    have earlier_fit : ∀ given ∈ (interview (inDoubt mode reply) earlier ()).1,
        Fits build given := by
      rw [interview_inDoubt, List.forall_mem_map]
      intro other mem
      have another : other ≠ mode := by
        rintro rfl
        exact before mem
      rw [if_neg another]
      exact fits_one build
    have asked : (inDoubt mode reply mode (interview (inDoubt mode reply) earlier ()).2).1 = reply :=
      if_pos rfl
    exact congrArg Round.checked
      ((Course.stopped split earlier_fit asked fits).eq_checkModes all_supported)

/-! ## Reporters that read a list -/

theorem ask_listed (mode : Mode) (listed : Listed) :
    listed.ask mode =
      (listed.replies.getD 0 0, ⟨listed.replies.tail, listed.asked ++ [mode]⟩) := by
  rcases listed with ⟨_ | ⟨reply, replies⟩, asked⟩ <;> rfl

theorem getD_tail (replies : List Int32) (n : Nat) :
    replies.tail.getD n 0 = replies.getD (n + 1) 0 := by
  cases replies <;> rfl

/-- A reporter that reads a list gives its replies in turn, and zero after its end. -/
theorem interview_listed (modes : List Mode) (listed : Listed) :
    interview Listed.ask modes listed =
      ((List.range modes.length).map (listed.replies.getD · 0),
        ⟨listed.replies.drop modes.length, listed.asked ++ modes⟩) := by
  induction modes generalizing listed with
  | nil => simp only [interview, List.length_nil, List.range_zero, List.map_nil, List.drop_zero,
      List.append_nil]
  | cons mode modes ih =>
      have later : (fun n => listed.replies.tail.getD n 0) =
          (fun n => listed.replies.getD n 0) ∘ Nat.succ := funext (getD_tail listed.replies)
      simp only [interview, ask_listed, ih, List.length_cons, List.range_succ_eq_map, List.map_cons,
        List.map_map, later, List.drop_tail, List.append_assoc, List.singleton_append]

/-- A verification that gets the reply `reply n` to its question number `n` ends at the first
misfit. -/
structure EndsAtFirstMisfit (build : Build) (reply : Nat → Int32) (asked : List Mode)
    (checked : Checked Unit) : Prop where
  /-- It asks about supported modes, mono before stereo, and about one at least. -/
  asked_first : asked ≠ [] ∧ asked <+: [.mono, .stereo].filter build.supports
  /-- It asks again only after a reply that fits. -/
  fits_of_not_last : ∀ n, n + 1 < asked.length → Fits build (reply n)
  /-- It passes exactly if it has asked about every supported mode and every reply fits. -/
  passes_iff : checked.result = .ok () ↔
    asked = [.mono, .stereo].filter build.supports ∧ ∀ n < asked.length, Fits build (reply n)
  /-- Otherwise its fault is about the last mode it has asked about, and about the reply to that. -/
  fault_of_last : ∀ fault, checked.result = .error fault →
    ∃ earlier mode, asked = earlier ++ [mode] ∧
      let last := reply earlier.length
      (last.toInt ≤ 0 ∧ fault = .invalidSize last) ∨
        ((build.decoderSize : Int) < last.toInt ∧
          fault = .tooSmall mode last.toInt.toNat build.decoderSize)

/-- The fault of a misfit tells the reply, or the mode with both sizes. -/
theorem fault_of_misfit {mode : Mode} {reply : Int32} {fault : Fault}
    (supported : build.supports mode = true) (misfit : ¬ Fits build reply)
    (refused : (checkReply build mode reply).result = .error fault) :
    (reply.toInt ≤ 0 ∧ fault = .invalidSize reply) ∨
      ((build.decoderSize : Int) < reply.toInt ∧
        fault = .tooSmall mode reply.toInt.toNat build.decoderSize) := by
  rcases not_fits_iff.mp misfit with small | large
  · rw [checkReply_of_not_positive small] at refused
    exact Or.inl ⟨small, (Except.error.inj refused).symm⟩
  · rw [checkReply_of_large supported large] at refused
    exact Or.inr ⟨large, (Except.error.inj refused).symm⟩

/-- A course through the supported modes ends at the first misfit. -/
theorem Course.endsAtFirstMisfit {asked : List Mode} {round : Round σ} {reply : Nat → Int32}
    (h : Course build ask build.supported reporter asked round)
    (given : (interview ask asked reporter).1 = (List.range asked.length).map reply) :
    EndsAtFirstMisfit build reply asked round.checked := by
  have initial := h.asked_prefix
  cases h with
  | passed fits =>
      have fits : ∀ n < build.supported.length, Fits build (reply n) := by
        simpa [given] using fits
      have some_asked : build.supported ≠ [] := by
        rw [show build.supported = .mono :: [Mode.stereo].filter build.supports from rfl]
        simp
      refine ⟨⟨some_asked, initial⟩, fun n h => fits n (by omega),
        ⟨fun _ => ⟨rfl, fits⟩, fun _ => rfl⟩, ?_⟩
      intro fault failed
      cases failed
  | @stopped earlier later mode last split earlier_fit replied misfit =>
      rw [replies_concat, replied, List.length_append, List.length_singleton, List.range_succ,
        List.map_append] at given
      obtain ⟨replies, last_reply⟩ := List.append_inj' given rfl
      obtain rfl : last = reply earlier.length := (List.cons.inj last_reply).1
      have supported : build.supports mode = true := Build.mem_supported.mp (by simp [split])
      obtain ⟨found, refused, -⟩ := checkReply_of_not_fits supported misfit
      refine ⟨⟨by simp, initial⟩, ?_, ⟨?_, ?_⟩, ?_⟩
      · intro n h
        rw [replies] at earlier_fit
        simp only [List.length_append, List.length_singleton] at h
        exact earlier_fit _ (List.mem_map_of_mem (List.mem_range.mpr (by omega)))
      · intro passed
        rw [refused] at passed
        cases passed
      · rintro ⟨-, fits⟩
        exact absurd (fits earlier.length (by simp)) misfit
      · intro fault failed
        exact ⟨earlier, mode, rfl, fault_of_misfit supported misfit failed⟩

/-- A verification that reads from a list what another one was replied takes the same course. -/
theorem Course.verifyListed_eq {asked : List Mode} {round : Round σ} {replies : List Int32}
    (h : Course build ask build.supported reporter asked round)
    (same : (List.range asked.length).map (replies.getD · 0) = (interview ask asked reporter).1) :
    verifyListed build replies = ⟨round.checked, ⟨replies.drop asked.length, asked⟩⟩ := by
  have listed := interview_listed asked ⟨replies, []⟩
  have replayed : Course build Listed.ask build.supported ⟨replies, []⟩ asked
      ⟨round.checked, (interview Listed.ask asked ⟨replies, []⟩).2⟩ := by
    apply h.replay
    rw [listed]
    exact same
  rw [listed] at replayed
  exact replayed.eq_checkModes fun _ => Build.mem_supported.mp

theorem map_range_getD_append (first second : List Int32) :
    (List.range first.length).map ((first ++ second).getD · 0) = first := by
  apply List.ext_getElem (by simp)
  intro n h _
  have here : n < first.length := by simpa using h
  simp [List.getElem?_append_left here, here]

/-- Verifications end at the first misfit. Over every list of replies, with zero after its end, only
the replies to the questions that are asked have an effect. Every other reporter, however its
replies depend on the questions before, is judged as the list of its replies is. -/
theorem verify_ends_at_first_misfit (build : Build) :
    (∀ replies : List Int32,
      let round := verifyListed build replies
      let asked := round.reporter.asked
      EndsAtFirstMisfit build (replies.getD · 0) asked round.checked ∧
        ∀ others : List Int32, (∀ n < asked.length, others.getD n 0 = replies.getD n 0) →
          (verifyListed build others).checked = round.checked ∧
            (verifyListed build others).reporter.asked = asked) ∧
    ∀ {σ : Type} (ask : Mode → σ → Int32 × σ) (reporter : σ),
      let listed := verifyListed build (interview ask build.supported reporter).1
      verify build ask reporter =
        ⟨listed.checked, (interview ask listed.reporter.asked reporter).2⟩ := by
  refine ⟨?_, ?_⟩
  · intro replies
    obtain ⟨asked, course⟩ := verify_course build Listed.ask ⟨replies, []⟩
    have given : (interview Listed.ask asked ⟨replies, []⟩).1 =
        (List.range asked.length).map (replies.getD · 0) := by rw [interview_listed]
    have ended := course.endsAtFirstMisfit given
    rw [course.verifyListed_eq given.symm]
    refine ⟨ended, ?_⟩
    intro others agree
    have same : (List.range asked.length).map (others.getD · 0) =
        (List.range asked.length).map (replies.getD · 0) :=
      List.map_congr_left fun n h => agree n (List.mem_range.mp h)
    rw [course.verifyListed_eq (same.trans given.symm)]
    exact ⟨rfl, rfl⟩
  · -- the list may be longer than what is asked, but it begins with the replies to that
    intro σ ask reporter
    obtain ⟨asked, course⟩ := verify_course build ask reporter
    obtain ⟨rest, supported⟩ := course.asked_prefix
    have read : (List.range asked.length).map
        ((interview ask build.supported reporter).1.getD · 0) =
          (interview ask asked reporter).1 := by
      rw [← supported, interview_append, ← length_interview ask asked reporter]
      exact map_range_getD_append _ _
    rw [course.verifyListed_eq read]
    exact congrArg (Round.mk _) course.reporter_eq

/-- A reporter that outgrows the storage with its first reply is not asked about stereo, where it
would have been fine. -/
theorem verify_ends_at_large_mono :
    let round := verifyListed ⟨.stereo⟩ [26581, 26580]
    EndsAtFirstMisfit ⟨.stereo⟩ ([26581, 26580].getD · 0) [.mono] round.checked ∧
      round.checked.result = .error (.tooSmall .mono 26581 26580) ∧
      (verifyListed ⟨.stereo⟩ [26581]).checked = round.checked := by
  intro round
  obtain ⟨ended, unread⟩ := (verify_ends_at_first_misfit ⟨.stereo⟩).1 [26581, 26580]
  have agree : ∀ n < 1, ([26581] : List Int32).getD n 0 = [26581, 26580].getD n 0 := by decide
  exact ⟨ended, rfl, (unread [26581] agree).1⟩

end StaticOpus.Fit
