import StaticOpus.Proofs.Codec.Turn
import StaticOpus.Proofs.Fit.FirstMisfit

/-!
# A verification is a sequence of single checks

A caller can verify a codec by itself: it asks for the version text and checks it, and then asks for
the size of each supported mode and checks that. A verification does the same in one go. It comes to
the same result by the same calls, logs the same entries, and uses up the same replies, also where a
fault ends it early.

## Implementation notes

The caller's procedure is written over the operations of a link alone. The loop of a verification
judges replies, the procedure judges the sizes that it is told; they meet in the check of one mode.
-/

namespace StaticOpus.Link

open Fit

variable {build : Build}

/-- A procedure of a caller: it works on a link and ends with its first fault. -/
abbrev Procedure (α : Type) := ExceptT Fault (StateM Link) α

namespace Procedure

/-- Asks for the version text. -/
def askVersion : Procedure String := ExceptT.mk fun link => (.ok link.version.1, link.version.2)

/-- Asks for the size of a decoder. -/
def askSize (mode : Mode) : Procedure Nat := ExceptT.mk fun link => link.size mode

/-- Takes over what a check came to: its log, and its fault if it found one. -/
def conclude (checked : Checked Unit) : Procedure Unit :=
  ExceptT.mk fun link => (checked.result, link.noteEvents checked.log)

/-- Checks one mode: asks for its size and checks that. -/
def checkMode (build : Build) (mode : Mode) : Procedure Unit := do
  let size ← askSize mode
  conclude (Fit.check build mode size)

/-- Checks those of some modes that the build supports, one after the other. -/
def checkEach (build : Build) (modes : List Mode) : Procedure Unit := do
  for mode in modes do
    if build.supports mode then
      checkMode build mode

/-- Checks the version and then the modes, mono before stereo. -/
def singleChecks (build : Build) : Procedure Unit := do
  let text ← askVersion
  conclude (Release.check text)
  checkEach build [.mono, .stereo]

/-- What a procedure comes to on a link, and the link after it. -/
def on {α : Type} (procedure : Procedure α) (link : Link) : Except Fault α × Link :=
  procedure.run.run link

/-- A procedure goes on after its first part with what that came to, unless that was a fault. -/
theorem on_bind {α β : Type} (first : Procedure α) (rest : α → Procedure β) (link : Link) :
    (first >>= rest).on link =
      match first.on link with
      | (.error fault, after) => (.error fault, after)
      | (.ok value, after) => (rest value).on after := by
  unfold on ExceptT.run StateT.run
  simp only [bind, ExceptT.bind, ExceptT.mk, StateT.bind, ExceptT.bindCont]
  rcases first link with ⟨_ | _, after⟩ <;> rfl

/-- The check of one mode judges the reply to its question. -/
theorem checkMode_on (build : Build) (mode : Mode) (link : Link) :
    (checkMode build mode).on link =
      let checked := checkReply build mode (link.askSize mode).1
      (checked.result, (link.askSize mode).2.noteEvents checked.log) := by
  have asked : (askSize mode).on link =
      (sizeOfReply (link.askSize mode).1, (link.askSize mode).2) := rfl
  rw [checkMode, on_bind, asked, checkReply]
  cases sizeOfReply (link.askSize mode).1 with
  | error fault => simp only [noteEvents_nil]
  | ok size => rfl

theorem checkEach_cons (build : Build) (mode : Mode) (modes : List Mode) :
    checkEach build (mode :: modes) =
      if build.supports mode then do
        checkMode build mode
        checkEach build modes
      else checkEach build modes := by
  simp only [checkEach, bind_pure_comp, List.forIn_cons, map_bind, id_map']
  split
  · simp only [bind_map_left]
  · simp only [pure_bind]

/-- The checks of some modes come to what a round of checks over the supported ones comes to. -/
theorem checkEach_on (build : Build) (modes : List Mode) (link : Link) :
    (checkEach build modes).on link =
      let round := checkModes build Link.askSize (modes.filter build.supports) link
      (round.checked.result, round.reporter.noteEvents round.checked.log) := by
  -- a passed check logs nothing, so the round's log at the end is that of the one check that fails
  induction modes generalizing link with
  | nil => exact congrArg (Prod.mk _) link.noteEvents_nil.symm
  | cons mode modes ih =>
      rw [checkEach_cons]
      by_cases supported : build.supports mode = true
      · rw [if_pos supported, List.filter_cons_of_pos supported, on_bind, checkMode_on]
        by_cases fits : Fits build (link.askSize mode).1
        · rw [checkModes_cons_of_fits supported fits]
          simp only [checkReply_of_fits supported fits, noteEvents_nil]
          exact ih _
        · rw [checkModes_cons_of_not_fits supported fits]
          obtain ⟨fault, refused, -⟩ := checkReply_of_not_fits supported fits
          simp only [refused]
      · rw [if_neg supported, List.filter_cons_of_neg supported]
        exact ih link

/-- The single checks come to what a verification comes to. -/
theorem singleChecks_on (build : Build) (link : Link) :
    (singleChecks build).on link = link.verify build := by
  have asked : askVersion.on link = (.ok link.version.1, link.version.2) := rfl
  have concluded (checked : Checked Unit) (link : Link) :
      (conclude checked).on link = (checked.result, link.noteEvents checked.log) := rfl
  rw [singleChecks, on_bind, asked, verify]
  simp only [on_bind, concluded]
  rcases Release.check link.version.1 with ⟨_ | _, log⟩
  · rfl
  · exact checkEach_on build [.mono, .stereo] _

end Procedure

/-- The size that a link tells is the reply itself, if that is positive. -/
theorem size_of_positive {mode : Mode} {link : Link}
    (positive : 0 < (link.codec.askSize mode).1.toInt) :
    (link.size mode).1 = .ok (link.codec.askSize mode).1.toInt.toNat := if_pos positive

theorem size_of_not_positive {mode : Mode} {link : Link}
    (small : (link.codec.askSize mode).1.toInt ≤ 0) :
    (link.size mode).1 = .error (.invalidSize (link.codec.askSize mode).1) :=
  if_neg (Int.not_lt.mpr small)

/-- A verification is made of single checks. On every link, whatever its codec replies next, it
comes to the same as the caller's own procedure: to the same result by the same calls, with the same
entries logged, and with the same replies left. So a reply is judged alike by both: what is no size
for a question to the link is none in a verification where this reply alone is in doubt, and what is
one is the same number there. -/
theorem verify_eq_single_checks (build : Build) :
    (∀ link : Link, link.verify build = (Procedure.singleChecks build).on link) ∧
    ∀ (mode : Mode) (link : Link), build.supports mode = true →
      let reply := (link.codec.askSize mode).1
      let verified := Fit.verify build (inDoubt mode reply) ()
      (reply.toInt ≤ 0 → (link.size mode).1 = .error (.invalidSize reply) ∧
        verified.checked.result = .error (.invalidSize reply)) ∧
      (0 < reply.toInt → ∃ size : Nat, (size : Int) = reply.toInt ∧ (link.size mode).1 = .ok size ∧
        verified.checked.result = (Fit.check build mode size).result) := by
  refine ⟨fun link => (Procedure.singleChecks_on build link).symm, ?_⟩
  intro mode link supported reply verified
  have judged : verified.checked = checkReply build mode reply := verify_inDoubt supported reply
  rw [judged]
  constructor
  · intro small
    rw [checkReply_of_not_positive small]
    exact ⟨size_of_not_positive small, rfl⟩
  · intro positive
    have number : (reply.toInt.toNat : Int) = reply.toInt :=
      Int.toNat_of_nonneg (Int.le_of_lt positive)
    refine ⟨reply.toInt.toNat, number, size_of_positive positive, ?_⟩
    simp only [checkReply, sizeOfReply, if_pos positive]

/-- A codec that would fit when it is asked again, checked one question at a time. -/
theorem single_checks_of_large_stereo :
    let codec : Codec :=
      { version := some (Text.Utf8.encode "libopus 1.5.2"), monoSizes := [17860, 0],
        stereoSizes := [26581, 26580] }
    let outcome := (Procedure.singleChecks ⟨.stereo⟩).on (fresh ⟨.stereo⟩ codec)
    outcome.1 = .error (.tooSmall .stereo 26581 26580) ∧
      outcome.2.calls = [.version, .size 1, .size 2] ∧
      outcome.2.log = [.storageTooSmall .stereo 26581 26580] ∧
      outcome.2.codec = { codec with monoSizes := [0], stereoSizes := [26580] } ∧
      (Fit.verify ⟨.stereo⟩ (inDoubt .stereo 26581) ()).checked.result =
        .error (.tooSmall .stereo 26581 26580) := by
  intro codec outcome
  have same : (fresh ⟨.stereo⟩ codec).verify ⟨.stereo⟩ = outcome :=
    (verify_eq_single_checks ⟨.stereo⟩).1 (fresh ⟨.stereo⟩ codec)
  have pinned : Release.isPinned (fresh ⟨.stereo⟩ codec).version.1.toList = true := by decide
  rw [verify_of_pinned pinned] at same
  obtain ⟨size, given, told, verified⟩ :=
    ((verify_eq_single_checks ⟨.stereo⟩).2 .stereo (fresh ⟨.stereo⟩ codec) rfl).2 (by decide)
  obtain rfl : 26581 = size := Except.ok.inj told
  rw [← same]
  exact ⟨rfl, rfl, rfl, rfl, verified⟩

end StaticOpus.Link
