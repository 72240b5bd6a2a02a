import Mathlib.Algebra.GroupWithZero.Nat
import Mathlib.Data.List.DropRight
import StaticOpus.Proofs.Storage
import StaticOpus.Storage.Use

/-!
# What a block holds is told by its history

A block is used like a plain array of bytes that starts zeroed. Each byte is the one that was stored
there last, by a write that the block had room for or by a fill, since the block was taken; where
nothing was stored it is zero. Reads and sums tell of that array, and a block's size and its record
tell of nothing but the mode that it was taken for.

## Implementation notes

A renewal may take a block of another size, so whether a write was made depends on the mode of the
block that was taken last before it. Within the steps since the last renewal that mode is the same.
-/

namespace StaticOpus.Storage

/-- The kinds of blocks that a build offers: one for each mode, and one for its selected mode. -/
inductive Kind where
  | of (mode : Mode)
  | selected

/-- The mode that a kind of block is for. -/
def Kind.mode (build : Build) : Kind → Mode
  | of mode => mode
  | selected => build.selected

namespace Step

/-- The mode of the block that a step takes, if it takes one. -/
def taken? : Step → Option Mode
  | renew mode => some mode
  | _ => none

/-- What a step stores at a position of a block of some size. A write that the block has no room for
stores nothing. -/
def stored? (size position : Nat) : Step → Option UInt8
  | write offset data =>
    if offset + data.length ≤ size ∧ offset ≤ position then data[position - offset]? else none
  | fill byte => some byte
  | _ => none

/-- Whether a step only looks at the block. -/
def looks : Step → Bool
  | info | record _ | read _ _ | sum => true
  | _ => false

/-- Whether a step asks for what a block is, and not for what it holds. -/
def asksShape : Step → Bool
  | info | record _ => true
  | _ => false

end Step

/-- The mode of the block that was taken last, where the first one was for `start`. -/
def lastTaken (start : Mode) (steps : List Step) : Mode :=
  (steps.filterMap Step.taken?).getLast?.getD start

/-- The byte that was stored last at a position since a block was taken, and zero if none was. -/
def lastStored (start : Mode) (steps : List Step) (position : Nat) : UInt8 :=
  let size := (lastTaken start steps).storageSize
  let since := steps.rtakeWhile fun step => step.taken?.isNone
  (since.filterMap (Step.stored? size position)).getLast?.getD 0

/-- What a plain array answers that holds `byte 0`, `byte 1` and so on, as many as a decoder in a
mode takes. -/
def arrayAnswer (mode : Mode) (byte : Nat → UInt8) : Step → Answer
  | .info => .info mode.storageSize true true
  | .record layout => .text ((zeroed mode).record.render layout)
  | .write offset data =>
    if offset + data.length ≤ mode.storageSize then .done else .outOfRange
  | .fill _ => .done
  | .read offset length =>
    if offset + length ≤ mode.storageSize then .bytes ((List.range' offset length).map byte)
    else .outOfRange
  | .sum =>
    let positions := List.range mode.storageSize
    .sum (positions.map fun position => (byte position).toNat).sum
      (positions.countP fun position => byte position ≠ 0)
  | .renew _ => .done

/-! ## Histories with one step more -/

section Histories

variable {start : Mode} {steps : List Step} {next : Step}

theorem lastTaken_concat :
    lastTaken start (steps ++ [next]) = next.taken?.getD (lastTaken start steps) := by
  cases taken : next.taken? <;> simp [lastTaken, taken]

theorem lastStored_of_taken {mode : Mode} (taken : next.taken? = some mode) (position : Nat) :
    lastStored start (steps ++ [next]) position = 0 := by
  simp [lastStored, taken]

theorem lastStored_of_kept (kept : next.taken? = none) (position : Nat) :
    lastStored start (steps ++ [next]) position =
      (next.stored? (lastTaken start steps).storageSize position).getD
        (lastStored start steps position) := by
  have same : lastTaken start (steps ++ [next]) = lastTaken start steps := by
    rw [lastTaken_concat, kept, Option.getD_none]
  simp only [lastStored, same, List.rtakeWhile_concat, kept, Option.isNone_none, if_true,
    List.filterMap_append]
  cases stored : next.stored? (lastTaken start steps).storageSize position <;> simp [stored]

end Histories

/-! ## One step -/

/-- A block for some mode that holds `byte 0`, `byte 1` and so on. -/
structure Holding (storage : Storage) (mode : Mode) (byte : Nat → UInt8) : Prop where
  mode_eq : storage.mode = mode
  bytes_eq : storage.bytes = (List.range mode.storageSize).map byte

namespace Holding

variable {storage : Storage} {mode : Mode} {byte : Nat → UInt8}

theorem zeroed (mode : Mode) : (zeroed mode).Holding mode fun _ => 0 where
  mode_eq := rfl
  bytes_eq := by simp [Storage.zeroed]

theorem fill (h : storage.Holding mode byte) (value : UInt8) :
    (storage.fill value).Holding mode fun _ => value where
  mode_eq := h.mode_eq
  bytes_eq := by simp [Storage.fill, h.mode_eq]

theorem size_eq (h : storage.Holding mode byte) : storage.size = mode.storageSize := by
  rw [Storage.size_eq, h.mode_eq]

/-- A write that is made changes the bytes that it covers and no others. -/
theorem write (h : storage.Holding mode byte) {offset : Nat} {data : List UInt8}
    {written : Storage} (made : storage.write? offset data = some written)
    (fits : offset + data.length ≤ mode.storageSize) :
    written.Holding mode fun position =>
      ((Step.write offset data).stored? mode.storageSize position).getD (byte position) where
  mode_eq := (mode_of_write? made).trans h.mode_eq
  bytes_eq := by
    rw [bytes_of_write? made, h.bytes_eq]
    apply List.ext_getElem
    · simp only [List.length_append, List.length_take, List.length_drop, List.length_map,
        List.length_range]
      omega
    · intro position inside _
      simp only [List.getElem_append, List.getElem_map, List.getElem_range, List.getElem_take,
        List.getElem_drop, List.length_append, List.length_take, List.length_map,
        List.length_range, Step.stored?]
      have room : min offset mode.storageSize = offset := by omega
      simp only [room]
      by_cases before : position < offset
      · rw [dif_pos (by omega), dif_pos before, if_neg (by omega), Option.getD_none]
      · by_cases covered : position < offset + data.length
        · have index : position - offset < data.length := by omega
          rw [dif_pos covered, dif_neg before, if_pos ⟨fits, by omega⟩,
            List.getElem?_eq_getElem index, Option.getD_some]
        · have index : data.length ≤ position - offset := by omega
          rw [dif_neg covered, if_pos ⟨fits, by omega⟩, List.getElem?_eq_none index,
            Option.getD_none]
          congr 1
          omega

/-- A read of bytes that the block has gives what it holds there. -/
theorem read (h : storage.Holding mode byte) {offset length : Nat}
    (fits : offset + length ≤ mode.storageSize) :
    storage.read? offset length = some ((List.range' offset length).map byte) := by
  rw [read?_eq_some (h.size_eq ▸ fits), h.bytes_eq]
  apply congrArg some
  apply List.ext_getElem
  · simp only [List.length_take, List.length_drop, List.length_map, List.length_range,
      List.length_range']
    omega
  · intro position _ _
    simp

theorem total_eq (h : storage.Holding mode byte) :
    storage.total =
      ((List.range mode.storageSize).map fun position => (byte position).toNat).sum := by
  rw [total, h.bytes_eq, List.foldl_map, List.sum_eq_foldl, List.foldl_map]

theorem nonzero_eq (h : storage.Holding mode byte) :
    storage.nonzero =
      (List.range mode.storageSize).countP fun position => byte position ≠ 0 := by
  rw [nonzero, h.bytes_eq, List.countP_map]
  rfl

/-- A block answers as the array of what it holds. -/
theorem answer (h : storage.Holding mode byte) (next : Step) :
    (step next storage).1 = arrayAnswer mode byte next := by
  cases next with
  | info =>
      simp [step, arrayAnswer, h.size_eq, readAddress, writeAddress, storage.address_aligned]
  | record layout => simp [step, arrayAnswer, record, h.mode_eq, Storage.zeroed]
  | write offset data =>
      by_cases fits : offset + data.length ≤ mode.storageSize
      · obtain ⟨written, made⟩ := exists_write? (h.size_eq ▸ fits)
        simp [step, arrayAnswer, made, fits]
      · have refused : storage.write? offset data = none := dif_neg (h.size_eq ▸ fits)
        simp [step, arrayAnswer, refused, fits]
  | fill value => rfl
  | read offset length =>
      by_cases fits : offset + length ≤ mode.storageSize
      · simp [step, arrayAnswer, h.read fits, fits]
      · have refused : storage.read? offset length = none := if_neg (h.size_eq ▸ fits)
        simp [step, arrayAnswer, refused, fits]
  | sum => simp only [step, arrayAnswer, h.total_eq, h.nonzero_eq]
  | renew mode => rfl

end Holding

/-- A step that only looks at the block, or is refused, changes nothing. -/
theorem step_kept {storage : Storage} {next : Step}
    (h : next.looks = true ∨ (step next storage).1 = .outOfRange) :
    (step next storage).2 = storage := by
  cases next with
  | info => rfl
  | record layout => rfl
  | write offset data =>
      have refused := h.resolve_left (by simp [Step.looks])
      cases made : storage.write? offset data with
      | some written => simp [step, made] at refused
      | none => simp [step, made]
  | fill value => simp [Step.looks, step] at h
  | read offset length =>
      simp only [step]
      split <;> rfl
  | sum => rfl
  | renew mode => simp [Step.looks, step] at h

theorem step_of_taken {next : Step} {mode : Mode} (taken : next.taken? = some mode)
    (storage : Storage) : (step next storage).2 = zeroed mode := by
  cases next with
  | renew other =>
      obtain rfl := Option.some.inj taken
      rfl
  | _ => cases taken

/-- A step that keeps the block keeps each byte but where it stores one. -/
theorem Holding.step {storage : Storage} {mode : Mode} {byte : Nat → UInt8}
    (h : storage.Holding mode byte) {next : Step} (kept : next.taken? = none) :
    (step next storage).2.Holding mode fun position =>
      (next.stored? mode.storageSize position).getD (byte position) := by
  cases next with
  | write offset data =>
      by_cases fits : offset + data.length ≤ mode.storageSize
      · obtain ⟨written, made⟩ := exists_write? (h.size_eq ▸ fits)
        rw [Storage.step, made]
        exact h.write made fits
      · have refused : storage.write? offset data = none := dif_neg (h.size_eq ▸ fits)
        simpa [Storage.step, refused, Step.stored?, fits] using h
  | fill value => exact h.fill value
  | renew mode => cases kept
  | _ =>
      rw [step_kept]
      · exact h
      · exact Or.inl rfl

/-! ## A whole run -/

section Runs

variable {steps : List Step} {next : Step}

theorem run_concat (steps : List Step) (next : Step) (storage : Storage) :
    (run (steps ++ [next]) storage).2 = (step next (run steps storage).2).2 := by
  induction steps generalizing storage with
  | nil => rfl
  | cons first rest ih => exact ih (step first storage).2

/-- Each answer of a run is that of its step after the steps before it. -/
theorem run_getElem? {n : Nat} (here : steps[n]? = some next) (storage : Storage) :
    (run steps storage).1[n]? = some (step next (run (steps.take n) storage).2).1 := by
  induction steps generalizing n storage with
  | nil => simp at here
  | cons first rest ih =>
      cases n with
      | zero =>
          obtain rfl := Option.some.inj here
          rfl
      | succ n => exact ih here (step first storage).2

/-- After any steps a block holds what its history tells. -/
theorem holding_run (start : Mode) (steps : List Step) :
    (run steps (zeroed start)).2.Holding (lastTaken start steps) (lastStored start steps) := by
  induction steps using List.reverseRecOn with
  | nil => exact Holding.zeroed start
  | append_singleton steps next ih =>
      rw [run_concat, lastTaken_concat]
      cases taken : next.taken? with
      | none =>
          have bytes : lastStored start (steps ++ [next]) = _ :=
            funext (lastStored_of_kept taken)
          rw [bytes, Option.getD_none]
          exact ih.step taken
      | some mode =>
          have bytes : lastStored start (steps ++ [next]) = fun _ => 0 :=
            funext (lastStored_of_taken taken)
          rw [bytes, Option.getD_some, step_of_taken taken]
          exact Holding.zeroed mode

/-- A block is used like a plain array of bytes that starts zeroed. At every place of every run, in
every build and for every kind of block, the answer is that of the array whose bytes are those
stored last since the block was taken, and whose size is that of the mode that it was taken for. A
step that only looks at the block, or reaches beyond its end, changes nothing. And what a block
answers about its shape is the same in any two runs that have last taken a block for the same mode,
whatever they have stored. -/
theorem answers_as_zeroed_array (build : Build) (kind : Kind) (steps : List Step) (n : Nat)
    (next : Step) (here : steps[n]? = some next) :
    let start := kind.mode build
    let mode := lastTaken start (steps.take n)
    let before := (run (steps.take n) (zeroed start)).2
    let after := (run (steps.take (n + 1)) (zeroed start)).2
    let answer := (run steps (zeroed start)).1[n]?
    answer = some (arrayAnswer mode (lastStored start (steps.take n)) next) ∧
    (next.looks = true ∨ answer = some .outOfRange → after = before) ∧
    (next.asksShape = true →
      ∀ (otherBuild : Build) (otherKind : Kind) (others : List Step) (m : Nat),
        let otherStart := otherKind.mode otherBuild
        others[m]? = some next → lastTaken otherStart (others.take m) = mode →
        (run others (zeroed otherStart)).1[m]? = answer) := by
  intro start mode before after answer
  have answered (first : Mode) (course : List Step) (m : Nat) (there : course[m]? = some next) :
      (run course (zeroed first)).1[m]? = some (arrayAnswer (lastTaken first (course.take m))
        (lastStored first (course.take m)) next) := by
    rw [run_getElem? there, (holding_run first (course.take m)).answer]
  refine ⟨answered start steps n here, ?_, ?_⟩
  · intro unmoved
    have split : steps.take (n + 1) = steps.take n ++ [next] := by
      rw [List.take_add_one, here, Option.toList_some]
    have last : after = (step next before).2 := by
      rw [← run_concat, ← split]
    rw [last]
    apply step_kept
    refine unmoved.imp_right fun refused => ?_
    rw [show answer = _ from run_getElem? here _] at refused
    exact Option.some.inj refused
  · intro shape otherBuild otherKind others m otherStart there same
    rw [answered otherStart others m there, same, show answer = _ from answered start steps n here]
    cases next with
    | info => rfl
    | record layout => rfl
    | _ => cases shape

/-- Writes that overlap leave the later bytes, and one that reaches beyond the end leaves nothing. A
wider block that is taken then starts zeroed, and reading nothing right at its end is in order. The
record of the block is the one of any other run that ends with such a block. -/
theorem answers_as_zeroed_array_around_renewal :
    let steps : List Step :=
      [.write 17857 [1, 2, 3], .write 17859 [9, 9], .write 17856 [4, 5], .read 17856 4,
        .renew .stereo, .write 17859 [9, 9], .read 17859 3, .read 26580 0, .record .line]
    let answers := (run steps (zeroed .mono)).1
    answers[3]? = some (.bytes [4, 5, 2, 3]) ∧ answers[6]? = some (.bytes [9, 9, 0]) ∧
      answers[7]? = some (.bytes []) ∧
      (run [.fill 7, .record .line] (zeroed .stereo)).1[1]? = answers[8]? := by
  intro steps answers
  have used := answers_as_zeroed_array ⟨.mono⟩ .selected steps
  refine ⟨?_, ?_, ?_, ?_⟩
  · exact (used 3 _ rfl).1.trans (by decide)
  · exact (used 6 _ rfl).1.trans (by decide)
  · exact (used 7 _ rfl).1.trans (by decide)
  · exact (used 8 _ rfl).2.2 rfl ⟨.stereo⟩ .selected [.fill 7, .record .line] 1 rfl rfl

end Runs

end StaticOpus.Storage
