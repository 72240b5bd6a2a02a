import StaticOpus.Codec.Link

/-!
# Sessions with a linked codec

A session is a sequence of steps on one link: checks, set-ups, fresh storage, and changes of the
codec behind the link's back. Every step reports its answer with the calls and log entries of its
own.
-/

namespace StaticOpus

namespace Link

/-- A step of a session. -/
inductive Step where
  /-- The codec changes. -/
  | change (change : Codec.Change)
  | version
  | explain (code : Int32)
  | size (mode : Mode)
  | verify
  | init (rate : Int32) (mode : Mode)
  /-- The storage is given up for a zeroed block. -/
  | renew
  | read (offset length : Nat)

/-- What a step answers. -/
inductive Answer where
  | done
  | text (text : String)
  | size (result : Except Fault Nat)
  | checked (result : Except Fault Unit)
  | bytes (bytes : List UInt8)
  /-- The bytes asked for are not all in the storage. -/
  | outOfRange

/-- What a step answered, which calls it made, and what it logged. -/
structure Report where
  answer : Answer
  calls : List Call
  log : List Event

/-- The answer of a step and the link after it. -/
def answer (build : Build) : Step → Link → Answer × Link
  | .change change, link => (.done, { link with codec := link.codec.apply change })
  | .version, link =>
    let (text, link) := link.version
    (.text text, link)
  | .explain code, link =>
    let (text, link) := link.explain code
    (.text text, link)
  | .size mode, link =>
    let (result, link) := link.size mode
    (.size result, link)
  | .verify, link =>
    let (result, link) := link.verify build
    (.checked result, link)
  | .init rate mode, link =>
    let (result, link) := link.init build rate mode
    (.checked result, link)
  | .renew, link => (.done, { link with storage := .zeroed build.selected })
  | .read offset length, link =>
    match link.storage.read? offset length with
    | some bytes => (.bytes bytes, link)
    | none => (.outOfRange, link)

/-- One step, reported with the calls and log entries of its own. -/
def step (build : Build) (next : Step) (link : Link) : Report × Link :=
  let (answer, link) := answer build next { link with calls := [], log := [] }
  (⟨answer, link.calls, link.log⟩, link)

/-- The reports of a session, and the link after it. -/
def run (build : Build) : List Step → Link → List Report × Link
  | [], link => ([], link)
  | first :: rest, link =>
    let (report, link) := step build first link
    let (reports, link) := run build rest link
    (report :: reports, link)

end Link

end StaticOpus
