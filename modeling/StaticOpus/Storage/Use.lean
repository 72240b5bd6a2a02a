import StaticOpus.Storage

/-!
# Use of a storage block

What the owner of a storage block does with it, step by step, and what each step answers.
-/

namespace StaticOpus

namespace Storage

/-- A step of the block's owner. -/
inductive Step where
  /-- Ask for size and placement. -/
  | info
  /-- Show the block as a record. -/
  | record (layout : Text.Layout)
  | write (offset : Nat) (data : List UInt8)
  | fill (byte : UInt8)
  | read (offset length : Nat)
  /-- Add up the contents. -/
  | sum
  /-- Take a zeroed block instead, for a decoder in `mode`. -/
  | renew (mode : Mode)

/-- What a step answers. -/
inductive Answer where
  | done
  /-- The size, whether both addresses are the block's own, and whether that is aligned. -/
  | info (size : Nat) (sameAddress aligned : Bool)
  | text (text : String)
  | bytes (bytes : List UInt8)
  | sum (total nonzero : Nat)
  /-- The bytes asked for are not all in the block. -/
  | outOfRange
  deriving DecidableEq

/-- One step: its answer, and the block after it. -/
def step : Step → Storage → Answer × Storage
  | .info, storage =>
    (.info storage.size
      (storage.readAddress = storage.address ∧ storage.writeAddress = storage.address)
      (storage.address % storageAlignment = 0), storage)
  | .record layout, storage => (.text (storage.record.render layout), storage)
  | .write offset data, storage =>
    match storage.write? offset data with
    | some storage => (.done, storage)
    | none => (.outOfRange, storage)
  | .fill byte, storage => (.done, storage.fill byte)
  | .read offset length, storage =>
    match storage.read? offset length with
    | some bytes => (.bytes bytes, storage)
    | none => (.outOfRange, storage)
  | .sum, storage => (.sum storage.total storage.nonzero, storage)
  | .renew mode, _ => (.done, zeroed mode)

/-- The answers of a sequence of steps, and the block after it. -/
def run : List Step → Storage → List Answer × Storage
  | [], storage => ([], storage)
  | first :: rest, storage =>
    let (answer, storage) := step first storage
    let (answers, storage) := run rest storage
    (answer :: answers, storage)

end Storage

end StaticOpus
