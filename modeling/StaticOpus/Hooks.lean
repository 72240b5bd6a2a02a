import StaticOpus.Text.Record

/-!
# Allocation hooks

The codec asks for memory through three hooks. The inert hooks refuse every allocation and ignore
every release, so a codec given them runs without a heap: no request returns memory, and no request
touches any. Other hooks are scripted: they note each request and hand out the addresses of a list.
-/

namespace StaticOpus

/-- What stands behind a hook. -/
inductive Hook where
  /-- Refuses or ignores every request. -/
  | inert
  /-- Notes the request and replies from a list. -/
  | scripted
  deriving DecidableEq

/-- The three hooks, by the kind of request they serve. -/
inductive Slot where
  | alloc
  | realloc
  | free
  deriving DecidableEq

namespace Slot

/-- The name of a slot. -/
def name : Slot → String
  | alloc => "alloc"
  | realloc => "realloc"
  | free => "free"

/-- The name under which the codec's linker looks for a hook. -/
def symbol : Slot → String
  | alloc => "opus_alloc"
  | realloc => "opus_realloc"
  | free => "opus_free"

/-- Every slot, in the order of their symbols. -/
def all : List Slot := [alloc, realloc, free]

end Slot

/-- A set of hooks. -/
structure Hooks where
  alloc : Hook
  realloc : Hook
  free : Hook
  deriving DecidableEq

namespace Hooks

/-- The hooks that never hand out memory. -/
def noHeap : Hooks := ⟨.inert, .inert, .inert⟩

instance : Inhabited Hooks := ⟨noHeap⟩

/-- The hooks behind the exported symbols. -/
def exported : Hooks := noHeap

/-- The hook in a slot. -/
def get (hooks : Hooks) : Slot → Hook
  | .alloc => hooks.alloc
  | .realloc => hooks.realloc
  | .free => hooks.free

/-- The hooks with another one in a slot. -/
def set (hooks : Hooks) (slot : Slot) (hook : Hook) : Hooks :=
  match slot with
  | .alloc => { hooks with alloc := hook }
  | .realloc => { hooks with realloc := hook }
  | .free => { hooks with free := hook }

/-- Whether no hook can hand out memory. -/
def isNoHeap (hooks : Hooks) : Bool := hooks = noHeap

/-- A hook's place in memory, by name. -/
def placeName (slot : Slot) : Hook → String
  | .inert =>
    match slot with
    | .alloc => "<deny_alloc>"
    | .realloc => "<deny_realloc>"
    | .free => "<ignore_free>"
  | .scripted => "<script_" ++ slot.name ++ ">"

/-- The hooks as a record of their places. -/
def record (hooks : Hooks) : Text.Record where
  name := "AllocHooks"
  fields := Slot.all.map fun slot => (slot.name, .word (placeName slot (hooks.get slot)))
  hides := false

end Hooks

/-- An address as a caller writes it. No hook looks at what is there. -/
structure Pointer where
  text : String
  deriving DecidableEq

/-- A request for memory. -/
inductive Request where
  | alloc (size : Nat)
  | realloc (pointer : Pointer) (size : Nat)
  | free (pointer : Pointer)
  deriving DecidableEq

/-- The slot whose hook serves a request. -/
def Request.slot : Request → Slot
  | .alloc _ => .alloc
  | .realloc .. => .realloc
  | .free _ => .free

end StaticOpus
