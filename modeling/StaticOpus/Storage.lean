import StaticOpus.Mode
import StaticOpus.Text.Record

/-!
# Decoder storage

A block of bytes that its owner places where it likes, as long as a decoder of one mode and aligned
for it. The block starts zeroed and is opaque: showing it tells its size and never its contents.
-/

namespace StaticOpus

/-- Room for a decoder in `mode`, at an address of its owner's choice. -/
structure Storage where
  mode : Mode
  address : Nat
  bytes : List UInt8
  address_aligned : address % storageAlignment = 0
  length_bytes : bytes.length = mode.storageSize

namespace Storage

/-- Zeroed room for a decoder in `mode`. -/
def zeroed (mode : Mode) : Storage where
  mode := mode
  address := 0
  bytes := List.replicate mode.storageSize 0
  address_aligned := rfl
  length_bytes := List.length_replicate

/-- The number of bytes of the block. -/
def size (storage : Storage) : Nat := storage.bytes.length

theorem size_eq (storage : Storage) : storage.size = storage.mode.storageSize :=
  storage.length_bytes

/-- The address for calls that read the block. -/
def readAddress (storage : Storage) : Nat := storage.address

/-- The address for calls that write the block. -/
def writeAddress (storage : Storage) : Nat := storage.address

/-- The block as a record: its size stands for all of it. -/
def record (storage : Storage) : Text.Record where
  name := storage.mode.name ++ "DecoderStorage"
  fields := [("size", .number storage.mode.storageSize)]
  hides := true

/-- The bytes from `offset` on, `length` of them, if the block has them all. -/
def read? (storage : Storage) (offset length : Nat) : Option (List UInt8) :=
  if offset + length ≤ storage.size then some ((storage.bytes.drop offset).take length) else none

/-- The block with `data` stored from `offset` on, if the block has room for it there. -/
def write? (storage : Storage) (offset : Nat) (data : List UInt8) : Option Storage :=
  if fits : offset + data.length ≤ storage.size then
    some { storage with
      bytes := storage.bytes.take offset ++ data ++ storage.bytes.drop (offset + data.length)
      length_bytes := by
        have := storage.length_bytes
        simp only [size] at fits
        simp only [List.length_append, List.length_take, List.length_drop]
        omega }
  else none

/-- The block with every byte set to `byte`. -/
def fill (storage : Storage) (byte : UInt8) : Storage :=
  { storage with
    bytes := List.replicate storage.mode.storageSize byte
    length_bytes := List.length_replicate }

/-- The sum of all bytes. -/
def total (storage : Storage) : Nat :=
  storage.bytes.foldl (fun sum byte => sum + byte.toNat) 0

/-- The number of bytes that are not zero. -/
def nonzero (storage : Storage) : Nat := storage.bytes.countP (· ≠ 0)

end Storage

end StaticOpus
