import StaticOpus.Fit

/-!
# Replies that fit

A reply of the codec about a size fits a build when it is positive and no larger than the storage.
One check of a reply, and with it each round of checks, is decided by that alone.
-/

namespace StaticOpus

namespace Build

theorem mem_supported {build : Build} {mode : Mode} :
    mode ∈ build.supported ↔ build.supports mode = true := by
  cases mode <;> simp [supported, Mode.all]

/-- A build for mono decoders supports no stereo decoder. -/
theorem supports_stereo {build : Build} (h : build.selected = .mono) :
    build.supports .stereo = false := by
  simp [supports, h]

end Build

namespace Fit

/-- A reply is the size of a decoder that the storage of the build can hold. -/
def Fits (build : Build) (reply : Int32) : Prop :=
  0 < reply.toInt ∧ reply.toInt ≤ build.decoderSize

instance (build : Build) (reply : Int32) : Decidable (Fits build reply) :=
  inferInstanceAs (Decidable (_ ∧ _))

variable {build : Build} {mode : Mode} {reply : Int32}

/-- A reply that does not fit is not positive or larger than the storage. -/
theorem not_fits_iff : ¬ Fits build reply ↔
    reply.toInt ≤ 0 ∨ (build.decoderSize : Int) < reply.toInt := by
  unfold Fits
  omega

/-- A fitting reply passes its check without an entry in the log. -/
theorem checkReply_of_fits (supported : build.supports mode = true) (fits : Fits build reply) :
    checkReply build mode reply = ⟨.ok (), []⟩ := by
  have small : reply.toInt.toNat ≤ build.decoderSize := by
    have := fits.2
    omega
  simp only [checkReply, sizeOfReply, if_pos fits.1, check, if_pos supported, if_pos small]

/-- A reply that is not positive is no size, which is not logged. -/
theorem checkReply_of_not_positive (h : reply.toInt ≤ 0) :
    checkReply build mode reply = ⟨.error (.invalidSize reply), []⟩ := by
  simp only [checkReply, sizeOfReply, if_neg (Int.not_lt.mpr h)]

/-- A reply past the storage is refused with both sizes, which are also logged. -/
theorem checkReply_of_large (supported : build.supports mode = true)
    (h : (build.decoderSize : Int) < reply.toInt) :
    checkReply build mode reply =
      ⟨.error (.tooSmall mode reply.toInt.toNat build.decoderSize),
        [.storageTooSmall mode reply.toInt.toNat build.decoderSize]⟩ := by
  have positive : 0 < reply.toInt := by omega
  have large : ¬ reply.toInt.toNat ≤ build.decoderSize := by omega
  simp only [checkReply, sizeOfReply, if_pos positive, check, if_pos supported, if_neg large]

/-- Every reply that does not fit is refused, but never for its release or for a set-up. -/
theorem checkReply_of_not_fits (supported : build.supports mode = true)
    (misfit : ¬ Fits build reply) :
    ∃ fault, (checkReply build mode reply).result = .error fault ∧ fault ≠ .versionMismatch ∧
      ∀ code, fault ≠ .initFailed code := by
  rcases not_fits_iff.mp misfit with h | h
  · rw [checkReply_of_not_positive h]
    exact ⟨_, rfl, by simp, by simp⟩
  · rw [checkReply_of_large supported h]
    exact ⟨_, rfl, by simp, by simp⟩

section Rounds

variable {σ : Type} {ask : Mode → σ → Int32 × σ} {modes : List Mode} {reporter : σ}

/-- After a fitting reply the round goes on with the next mode. -/
theorem checkModes_cons_of_fits (supported : build.supports mode = true)
    (fits : Fits build (ask mode reporter).1) :
    checkModes build ask (mode :: modes) reporter =
      checkModes build ask modes (ask mode reporter).2 := by
  simp [checkModes, checkReply_of_fits supported fits]

/-- A misfit ends the round: nothing is asked after it. -/
theorem checkModes_cons_of_not_fits (supported : build.supports mode = true)
    (misfit : ¬ Fits build (ask mode reporter).1) :
    checkModes build ask (mode :: modes) reporter =
      ⟨checkReply build mode (ask mode reporter).1, (ask mode reporter).2⟩ := by
  obtain ⟨fault, h, -⟩ := checkReply_of_not_fits supported misfit
  cases hc : checkReply build mode (ask mode reporter).1 with
  | mk result log =>
      obtain rfl : result = .error fault := by simpa only [hc] using h
      simp [checkModes, hc]

end Rounds

end Fit

end StaticOpus
