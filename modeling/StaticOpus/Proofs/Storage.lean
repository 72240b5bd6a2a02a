import StaticOpus.Storage

/-!
# Writing and reading a storage block

A write either changes exactly the bytes that it covers or is refused. It is refused only where the
block has no room for it, and it never turns the block into one for another mode. A block and a wider
one that starts with its bytes cannot be told apart by reads and writes within the smaller.
-/

namespace StaticOpus.Storage

variable {storage written : Storage} {offset : Nat} {data : List UInt8}

/-- A write that the block has room for is made. -/
theorem exists_write? (fits : offset + data.length ≤ storage.size) :
    ∃ written, storage.write? offset data = some written :=
  ⟨_, dif_pos fits⟩

theorem bytes_of_write? (h : storage.write? offset data = some written) :
    written.bytes =
      storage.bytes.take offset ++ data ++ storage.bytes.drop (offset + data.length) := by
  by_cases fits : offset + data.length ≤ storage.size
  · rw [write?, dif_pos fits] at h
    rw [← Option.some.inj h]
  · rw [write?, dif_neg fits] at h
    cases h

theorem mode_of_write? (h : storage.write? offset data = some written) :
    written.mode = storage.mode := by
  by_cases fits : offset + data.length ≤ storage.size
  · rw [write?, dif_pos fits] at h
    rw [← Option.some.inj h]
  · rw [write?, dif_neg fits] at h
    cases h

/-- A read of bytes that the block has gives them. -/
theorem read?_eq_some {length : Nat} (fits : offset + length ≤ storage.size) :
    storage.read? offset length = some ((storage.bytes.drop offset).take length) :=
  if_pos fits

section Wider

/-! A block and a wider one that starts with its bytes. -/

variable {wide : Storage}

/-- What the smaller block can be asked for, the wider one gives too. -/
theorem read?_wide (h : storage.bytes <+: wide.bytes) {length : Nat}
    (fits : offset + length ≤ storage.size) :
    wide.read? offset length = storage.read? offset length := by
  obtain ⟨rest, same⟩ := h
  have room : offset + length ≤ storage.bytes.length := fits
  have wider : offset + length ≤ wide.size := by
    simp only [size, ← same, List.length_append]
    omega
  rw [read?_eq_some fits, read?_eq_some wider, ← same,
    List.drop_append_of_le_length (by omega), List.take_append_of_le_length]
  rw [List.length_drop]
  omega

/-- One write to both that the smaller block has room for keeps them so. -/
theorem exists_write?_wide (h : storage.bytes <+: wide.bytes)
    (fits : offset + data.length ≤ storage.size) :
    ∃ written wideWritten, storage.write? offset data = some written ∧
      wide.write? offset data = some wideWritten ∧ written.bytes <+: wideWritten.bytes := by
  have wider : offset + data.length ≤ wide.size := Nat.le_trans fits h.length_le
  obtain ⟨written, write⟩ := exists_write? fits
  obtain ⟨wideWritten, wideWrite⟩ := exists_write? wider
  refine ⟨written, wideWritten, write, wideWrite, ?_⟩
  obtain ⟨rest, same⟩ := h
  have room : offset + data.length ≤ storage.bytes.length := fits
  rw [bytes_of_write? write, bytes_of_write? wideWrite, ← same,
    List.take_append_of_le_length (by omega), List.drop_append_of_le_length room,
    ← List.append_assoc]
  exact List.prefix_append _ rest

end Wider

/-- The smallest block is far larger than what a set-up writes. -/
theorem eight_le_size (storage : Storage) : 8 ≤ storage.size := by
  rw [size_eq]
  cases storage.mode <;> decide

end StaticOpus.Storage
