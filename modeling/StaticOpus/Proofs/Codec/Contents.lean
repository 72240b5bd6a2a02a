import Mathlib.Tactic.NormNum
import StaticOpus.Proofs.Codec.Turn

/-!
# What the storage of a link holds

The storage starts zeroed. A codec that sets a decoder up stores the rate and the channel count in
its first eight bytes; nothing else that is done with a link writes a byte. So the storage always
tells which set-up was the last to succeed since it was zeroed.

## Implementation notes

Words are read back by their place values in base 256 and the sign of two's complement, not by
undoing the shifts that wrote them.
-/

namespace StaticOpus

/-- The number that some bytes stand for, the lowest first. -/
def unsigned : List UInt8 → Nat
  | [] => 0
  | byte :: rest => byte.toNat + 256 * unsigned rest

/-- The number that some bytes stand for in two's complement: the upper half is negative. -/
def signed (bytes : List UInt8) : Int :=
  if 2 * unsigned bytes < 256 ^ bytes.length then unsigned bytes
  else unsigned bytes - 256 ^ bytes.length

namespace Link

theorem unsigned_littleEndian (word : Int32) :
    unsigned (littleEndian word) = word.toUInt32.toNat := by
  have bound := word.toUInt32.toNat_lt
  simp only [littleEndian, unsigned, UInt32.toNat_toUInt8, UInt32.toNat_shiftRight,
    UInt32.reduceToNat, Nat.reduceMod, Nat.shiftRight_eq_div_pow]
  omega

/-- A stored word reads back, negative or not. -/
theorem signed_littleEndian (word : Int32) : signed (littleEndian word) = word.toInt := by
  have length : (littleEndian word).length = 4 := rfl
  calc
    signed (littleEndian word)
        = if 2 * word.toUInt32.toNat < 2 ^ 32 then (word.toUInt32.toNat : Int)
          else word.toUInt32.toNat - 2 ^ 32 := by
      rw [signed, unsigned_littleEndian, length]
      norm_num
    _ = word.toInt := (BitVec.toInt_eq_toNat_cond word.toBitVec).symm

theorem signed_channels (mode : Mode) :
    signed (littleEndian (Int32.ofNat mode.channels.toNat)) = mode.channels.toNat := by
  rw [signed_littleEndian]
  cases mode <;> rfl

end Link

/-- What the storage holds of the set-up that stands in it: zeroes if there is none, and else the
rate, the channel count, and zeroes after them. -/
def Storage.Holds (storage : Storage) : Option (Int32 × Mode) → Prop
  | none => ∀ byte ∈ storage.bytes, byte = 0
  | some (rate, mode) =>
    (storage.read? 0 4).map signed = some rate.toInt ∧
      (storage.read? 4 4).map signed = some (mode.channels.toNat : Int) ∧
      ∀ byte ∈ storage.bytes.drop 8, byte = 0

namespace Storage

variable {storage : Storage} {standing : Option (Int32 × Mode)}

theorem holds_zeroed (mode : Mode) : (zeroed mode).Holds none := by
  intro byte h
  exact List.eq_of_mem_replicate h

/-- Whatever stands in the storage, the bytes after a set-up are zero. -/
theorem Holds.rest_zero (h : storage.Holds standing) : ∀ byte ∈ storage.bytes.drop 8, byte = 0 := by
  cases standing with
  | none =>
      intro byte mem
      exact h byte (List.mem_of_mem_drop mem)
  | some setUp => exact h.2.2

/-- A set-up that succeeds stands in the storage afterwards, whatever stood there before. -/
theorem Holds.setUp (h : storage.Holds standing) (rate : Int32) (mode : Mode) :
    (Link.setUpStorage rate mode storage (.ok ())).Holds (some (rate, mode)) := by
  have room := storage.eight_le_size
  obtain ⟨written, write⟩ : ∃ written,
      storage.write? 0 (Link.decoderState rate mode) = some written := exists_write? room
  have bytes : written.bytes =
      Link.littleEndian rate ++ Link.littleEndian (Int32.ofNat mode.channels.toNat) ++
        storage.bytes.drop 8 := bytes_of_write? write
  have same : Link.setUpStorage rate mode storage (.ok ()) = written := by
    simp only [Link.setUpStorage, write, Option.getD_some]
  have fits := written.eight_le_size
  rw [same]
  refine ⟨?_, ?_, ?_⟩
  · rw [read?_eq_some (by omega), bytes]
    exact congrArg some (Link.signed_littleEndian rate)
  · rw [read?_eq_some (by omega), bytes]
    exact congrArg some (Link.signed_channels mode)
  · rw [bytes]
    exact h.rest_zero

end Storage

namespace Link

/-- The set-up that stands in the storage after a turn, given the one that stood there before it. -/
def Turn.standing (before : Option (Int32 × Mode)) (turn : Turn) : Option (Int32 × Mode) :=
  match turn.step, turn.report.answer with
  | .renew, _ => none
  | .init rate mode, .checked (.ok ()) => some (rate, mode)
  | _, _ => before

/-- The last set-up of some turns that succeeded, unless the storage was given up after it. -/
def lastSetUp (history : List Turn) : Option (Int32 × Mode) :=
  history.foldl Turn.standing none

variable {build : Build} {link : Link} {standing : Option (Int32 × Mode)}

/-- A turn keeps track of the set-up that stands in the storage. -/
theorem holds_take (step : Step) (h : link.storage.Holds standing) :
    let turn := Turn.take build step link
    turn.after.storage.Holds (turn.standing standing) := by
  intro turn
  have after : turn.after.storage =
      storageAfter build step turn.report.answer link.storage := step_storage build step link
  rw [after]
  cases step with
  | renew => exact Storage.holds_zeroed build.selected
  | init rate mode =>
      have answer : turn.report.answer = .checked (link.cleared.init build rate mode).1 := rfl
      have step : turn.step = .init rate mode := rfl
      unfold Turn.standing
      rw [answer, step]
      cases (link.cleared.init build rate mode).1 with
      | error fault => exact h
      | ok done => exact h.setUp rate mode
  | _ => exact h

/-- So does every turn of a session. -/
theorem holds_of_turns {steps : List Step} (h : link.storage.Holds standing) {earlier : List Turn}
    {turn : Turn} {later : List Turn} (split : turns build steps link = earlier ++ turn :: later) :
    turn.after.storage.Holds ((earlier ++ [turn]).foldl Turn.standing standing) := by
  induction steps generalizing link standing earlier with
  | nil => simp [turns] at split
  | cons first rest ih =>
      have next : (Turn.take build first link).after.storage.Holds
          (Turn.standing standing (Turn.take build first link)) := holds_take first h
      cases earlier with
      | nil =>
          obtain ⟨rfl, -⟩ := List.cons.inj split
          exact next
      | cons head tail =>
          obtain ⟨rfl, splitRest⟩ := List.cons.inj split
          exact ih next splitRest

/-- A step that answers with a fault leaves every byte as it was. -/
theorem step_storage_of_fault {step : Step} {fault : Fault}
    (h : (Link.step build step link).1.answer = .checked (.error fault) ∨
      (Link.step build step link).1.answer = .size (.error fault)) :
    (Link.step build step link).2.storage = link.storage := by
  rw [step_storage]
  cases step with
  | renew => rcases h with h | h <;> cases h
  | init rate mode =>
      rcases h with h | h
      · rw [h]
        rfl
      · cases h
  | _ => rfl

/-- A step that neither sets a decoder up nor renews the storage leaves every byte as it was. -/
theorem step_storage_of_other {step : Step} (other : ∀ rate mode, step ≠ .init rate mode)
    (kept : step ≠ .renew) : (Link.step build step link).2.storage = link.storage := by
  rw [step_storage]
  cases step with
  | init rate mode => exact absurd rfl (other rate mode)
  | renew => exact absurd rfl kept
  | _ => rfl

/-- After every turn of every session the storage holds the last set-up that succeeded since it was
zeroed, and nothing else. No fault, and no step but a set-up or a renewal, changes a byte, and the
storage never changes its size. -/
theorem storage_holds_last_setUp (build : Build) (codec : Codec) (steps : List Step)
    (earlier : List Turn) (turn : Turn) (later : List Turn)
    (split : turns build steps (fresh build codec) = earlier ++ turn :: later) :
    turn.after.storage.Holds (lastSetUp (earlier ++ [turn])) ∧
      turn.before.storage.size = build.decoderSize ∧
      turn.after.storage.size = build.decoderSize ∧
      (∀ fault, turn.report.answer = .checked (.error fault) ∨
        turn.report.answer = .size (.error fault) → turn.after.storage = turn.before.storage) ∧
      ((∀ rate mode, turn.step ≠ .init rate mode) → turn.step ≠ .renew →
        turn.after.storage = turn.before.storage) := by
  have mem : turn ∈ turns build steps (fresh build codec) := by simp [split]
  have start : (fresh build codec).storage.mode = build.selected := rfl
  obtain ⟨step, before, selected, rfl⟩ :=
    exists_take_of_mem_turns (step_storage_mode build) start mem
  have kept := step_storage_mode build step before selected
  refine ⟨holds_of_turns (Storage.holds_zeroed build.selected) split, ?_, ?_, ?_, ?_⟩
  · exact (Storage.size_eq _).trans (congrArg Mode.storageSize selected)
  · exact (Storage.size_eq _).trans (congrArg Mode.storageSize kept)
  · exact fun fault h => step_storage_of_fault h
  · exact step_storage_of_other

/-- A negative rate that the codec accepts is still in the storage after a set-up that it refuses,
and after a verification. -/
theorem storage_holds_negative_rate :
    let steps := [.init (-5) .mono, .init 48000 .mono, .verify]
    let link := fresh ⟨.mono⟩ { monoSizes := [100], initCodes := [0, -3] }
    ∃ earlier turn, turns ⟨.mono⟩ steps link = earlier ++ turn :: [] ∧
      lastSetUp (earlier ++ [turn]) = some (-5, .mono) ∧
      turn.after.storage.Holds (some (-5, .mono)) := by
  intro steps link
  obtain ⟨earlier, turn, split, last⟩ : ∃ earlier turn,
      turns ⟨.mono⟩ steps link = earlier ++ turn :: [] ∧
        lastSetUp (earlier ++ [turn]) = some (-5, .mono) :=
    ⟨[_, _], _, rfl, rfl⟩
  have holds := (storage_holds_last_setUp _ _ _ earlier turn [] split).1
  rw [last] at holds
  exact ⟨earlier, turn, split, last, holds⟩

end Link

end StaticOpus
