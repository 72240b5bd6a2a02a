import StaticOpus.Proofs.Codec.Audit
import StaticOpus.Proofs.Codec.Gate

/-!
# The report of a set-up

A set-up is told from two numbers: the reply to its question for the size, and the code of the
codec's own set-up. The reply decides alone unless it fits; then the code does. Calls and log follow
from the outcome, so two set-ups with one outcome and one codec have one report.
-/

namespace StaticOpus.Link

open Fit

variable {build : Build} {link other : Link} {rate : Int32} {mode : Mode}

/-- A set-up is reported by its outcome, the calls that lead to it, and the entries it calls for. -/
def setUpReport (link : Link) (rate : Int32) (mode : Mode) (result : Except Fault Unit) : Report :=
  ⟨.checked result, setUpCalls rate mode result, link.entries result⟩

theorem step_init_report {result : Except Fault Unit}
    (answered : (Link.step build (.init rate mode) link).1.answer = .checked result) :
    (Link.step build (.init rate mode) link).1 = link.setUpReport rate mode result := by
  have logged := step_log build (.init rate mode) link
  have calls := (init_setUp build rate mode link.cleared).conversed.calls_of_cleared
  rw [step_init] at answered logged ⊢
  obtain rfl : (link.cleared.init build rate mode).1 = result := Answer.checked.inj answered
  simp only at logged
  rw [calls, logged, setUpReport]

/-- The texts in a report are those of the codec, whatever else the link is. -/
theorem setUpReport_congr (same : other.codec = link.codec) (result : Except Fault Unit) :
    other.setUpReport rate mode result = link.setUpReport rate mode result := by
  rcases result with fault | done
  · cases fault <;> simp only [setUpReport, entries, version, explain, same]
  · rfl

/-- What a set-up comes to if the codec itself has ended it with a code. -/
def outcome (code : Int32) : Except Fault Unit :=
  if code = Codec.ok then .ok () else .error (.initFailed code)

/-- After a fitting reply the codec's own code decides a set-up. -/
theorem init_answer_of_fits (supported : build.supports mode = true)
    (fits : Fits build (link.codec.askSize mode).1) :
    (Link.step build (.init rate mode) link).1.answer =
      .checked (outcome ((link.codec.askSize mode).2.askInit rate).1) := by
  have setUp := init_setUp build rate mode link.cleared
  rw [step_init]
  generalize (link.cleared.init build rate mode).1 = result at setUp ⊢
  generalize (link.cleared.init build rate mode).2 = after at setUp
  cases setUp with
  | unsupported other => simp [supported] at other
  | noSize _ asked small => exact absurd (asked ▸ fits.1) (Int.not_lt.mpr small)
  | tooLarge _ asked large => exact absurd (asked ▸ fits.2) (Int.not_le.mpr large)
  | done _ _ taken => exact congrArg Answer.checked (if_pos taken).symm
  | failed _ _ code_eq refused _ =>
      subst code_eq
      exact congrArg Answer.checked (if_neg refused).symm

/-- A reply that is no size ends a set-up. -/
theorem init_answer_of_not_positive {reply : Int32} (supported : build.supports mode = true)
    (asked : (link.codec.askSize mode).1 = reply) (small : reply.toInt ≤ 0) :
    (Link.step build (.init rate mode) link).1.answer = .checked (.error (.invalidSize reply)) := by
  subst asked
  exact (init_refused supported (congrArg Checked.result (checkReply_of_not_positive small))).1

/-- So does a size past the storage. -/
theorem init_answer_of_large {reply : Int32} (supported : build.supports mode = true)
    (asked : (link.codec.askSize mode).1 = reply)
    (large : (build.decoderSize : Int) < reply.toInt) :
    (Link.step build (.init rate mode) link).1.answer =
      .checked (.error (.tooSmall mode reply.toInt.toNat build.decoderSize)) := by
  subst asked
  exact (init_refused supported (congrArg Checked.result (checkReply_of_large supported large))).1

/-- A build without room for the mode ends a set-up before the codec is asked anything. -/
theorem init_answer_of_unsupported (unsupported : build.supports mode = false) :
    (Link.step build (.init rate mode) link).1.answer = .checked (.error (.unsupported mode)) := by
  rw [step_init, init_eq, unsupported]
  rfl

/-- Two set-ups whose questions get the same replies have the same answer. -/
theorem init_answer_congr (sizes : (other.codec.askSize mode).1 = (link.codec.askSize mode).1)
    (codes : ((other.codec.askSize mode).2.askInit rate).1 =
      ((link.codec.askSize mode).2.askInit rate).1) :
    (Link.step build (.init rate mode) other).1.answer =
      (Link.step build (.init rate mode) link).1.answer := by
  cases supported : build.supports mode with
  | false => rw [init_answer_of_unsupported supported, init_answer_of_unsupported supported]
  | true =>
      by_cases fits : Fits build (link.codec.askSize mode).1
      · have alsoFits : Fits build (other.codec.askSize mode).1 := sizes ▸ fits
        rw [init_answer_of_fits supported fits, init_answer_of_fits supported alsoFits, codes]
      · rcases not_fits_iff.mp fits with small | large
        · rw [init_answer_of_not_positive supported rfl small,
            init_answer_of_not_positive supported sizes small]
        · rw [init_answer_of_large supported rfl large, init_answer_of_large supported sizes large]

/-- The codec itself has ended the set-up, well or not. -/
def Report.EndedByCodec (report : Report) : Prop :=
  report.answer = .checked (.ok ()) ∨ ∃ code, report.answer = .checked (.error (.initFailed code))

/-- A set-up that the codec itself has ended was made after a fitting reply. -/
theorem fits_of_endedByCodec (ended : (Link.step build (.init rate mode) link).1.EndedByCodec) :
    Fits build (link.codec.askSize mode).1 := by
  have reaches : (Link.step build (.init rate mode) link).1.Reaches rate mode := by
    refine ⟨?_, ended⟩
    rcases ended with taken | ⟨code, refused⟩
    · rw [step_init_report taken]
      simp [setUpReport, setUpCalls]
    · rw [step_init_report refused]
      simp [setUpReport, setUpCalls]
  exact (init_reaches_iff.mp reaches).2

end StaticOpus.Link
