import StaticOpus.Hooks

/-!
# Requests through hooks

A caller owns some blocks of memory and a set of hooks, and makes requests: through its own hooks,
to the inert hooks directly, or through the exported symbols. Each step reports its answer, the
requests that scripted hooks noted, and the blocks after it.
-/

namespace StaticOpus

/-- The caller's hooks, the addresses that scripted hooks still have to give, and the caller's
blocks of memory. -/
structure Heap where
  hooks : Hooks
  allocReplies : List Nat := []
  reallocReplies : List Nat := []
  blocks : List (List UInt8) := []

namespace Heap

/-- The hooks that a request goes through. -/
inductive Route where
  /-- The caller's own hooks. -/
  | hooks
  /-- The inert hooks, called by name. -/
  | inert
  /-- The exported symbols. -/
  | exported
  deriving DecidableEq

/-- The hooks that a route leads to. -/
def Route.resolve (heap : Heap) : Route → Hooks
  | .hooks => heap.hooks
  | .inert => .noHeap
  | .exported => .exported

/-- A step of the caller. -/
inductive Step where
  | request (route : Route) (request : Request)
  /-- Ask whether the caller's hooks can hand out memory. -/
  | isNoHeap
  /-- Show the caller's hooks as a record. -/
  | record (layout : Text.Layout)
  | set (slot : Slot) (hook : Hook)
  | reset (hooks : Hooks)

/-- What a step answers. The address zero is the null pointer. -/
inductive Answer where
  | done
  | address (address : Nat)
  | flag (value : Bool)
  | text (text : String)
  deriving DecidableEq

/-- What a step answered, the requests that scripted hooks noted, and the blocks after it. -/
structure Report where
  answer : Answer
  calls : List Request
  blocks : List (List UInt8)

/-- A scripted hook serves a request: the next address of its list, null after the list's end. -/
def serve (request : Request) (heap : Heap) : Answer × Heap :=
  match request with
  | .alloc _ =>
    (.address (heap.allocReplies.headD 0), { heap with allocReplies := heap.allocReplies.tail })
  | .realloc .. =>
    (.address (heap.reallocReplies.headD 0),
      { heap with reallocReplies := heap.reallocReplies.tail })
  | .free _ => (.done, heap)

/-- An inert hook refuses a request: the answer is null, or nothing for a release. -/
def refuse : Request → Answer
  | .alloc _ => .address 0
  | .realloc .. => .address 0
  | .free _ => .done

/-- One step: its answer, the requests noted, and the heap after it. -/
def step (next : Step) (heap : Heap) : Answer × List Request × Heap :=
  match next with
  | .request route request =>
    match (route.resolve heap).get request.slot with
    | .inert => (refuse request, [], heap)
    | .scripted =>
      let (answer, heap) := heap.serve request
      (answer, [request], heap)
  | .isNoHeap => (.flag heap.hooks.isNoHeap, [], heap)
  | .record layout => (.text (heap.hooks.record.render layout), [], heap)
  | .set slot hook => (.done, [], { heap with hooks := heap.hooks.set slot hook })
  | .reset hooks => (.done, [], { heap with hooks := hooks })

/-- The reports of a sequence of steps, and the heap after it. -/
def run : List Step → Heap → List Report × Heap
  | [], heap => ([], heap)
  | first :: rest, heap =>
    let (answer, calls, after) := step first heap
    let (reports, last) := run rest after
    (⟨answer, calls, after.blocks⟩ :: reports, last)

end Heap

end StaticOpus
