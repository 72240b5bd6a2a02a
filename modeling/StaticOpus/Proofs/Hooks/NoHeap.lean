import Mathlib.Data.List.Basic
import StaticOpus.Hooks.Heap

/-!
# Running without a heap

A caller may replace each of its hooks at any time. Whether its hooks can hand out memory is decided
by what was last put into each slot. As long as no slot holds a scripted hook, every request through
the caller's hooks is refused, and a request through the exported symbols is refused whatever the
caller's hooks are.

## Implementation notes

Scripted hooks stand at other places than the inert ones, so comparing the places of two sets of
hooks is comparing the hooks. A reset puts a hook into every slot at once, so it counts as the last
assignment to each of them.
-/

namespace StaticOpus

namespace Hooks

theorem get_set (hooks : Hooks) (slot other : Slot) (hook : Hook) :
    (hooks.set slot hook).get other = if slot = other then hook else hooks.get other := by
  cases slot <;> cases other <;> rfl

/-- Hooks can hand out no memory exactly if none of them is scripted. -/
theorem isNoHeap_iff (hooks : Hooks) :
    hooks.isNoHeap = true ↔ ∀ slot, hooks.get slot ≠ .scripted := by
  rw [isNoHeap, decide_eq_true_iff]
  constructor
  · rintro rfl slot
    cases slot <;> simp [noHeap, get]
  · intro none_scripted
    have inert (slot : Slot) : hooks.get slot = .inert := by
      cases held : hooks.get slot with
      | inert => rfl
      | scripted => exact absurd held (none_scripted slot)
    cases hooks
    rw [noHeap, mk.injEq]
    exact ⟨inert .alloc, inert .realloc, inert .free⟩

end Hooks

namespace Heap

/-! ## What a slot holds -/

/-- What a step puts into a slot. A reset puts something into every slot. -/
def Step.assigned? (slot : Slot) : Step → Option Hook
  | .set other hook => if other = slot then some hook else none
  | .reset hooks => some (hooks.get slot)
  | _ => none

/-- What was last put into a slot by some steps; without any such step, what it held before. -/
def lastAssigned (slot : Slot) (before : Hook) (steps : List Step) : Hook :=
  (steps.filterMap (Step.assigned? slot)).getLast?.getD before

theorem lastAssigned_cons (slot : Slot) (before : Hook) (first : Step) (rest : List Step) :
    lastAssigned slot before (first :: rest) =
      lastAssigned slot ((first.assigned? slot).getD before) rest := by
  cases assigned : first.assigned? slot with
  | none => simp [lastAssigned, assigned]
  | some hook => simp [lastAssigned, assigned, List.getLast?_cons]

/-- A request changes neither the caller's hooks nor its blocks, whichever hook serves it. -/
theorem step_request (route : Route) (request : Request) (heap : Heap) :
    (step (.request route request) heap).2.2.hooks = heap.hooks ∧
      (step (.request route request) heap).2.2.blocks = heap.blocks := by
  rw [step]
  split
  · exact ⟨rfl, rfl⟩
  · cases request <;> exact ⟨rfl, rfl⟩

theorem step_hooks_get (slot : Slot) (next : Step) (heap : Heap) :
    (step next heap).2.2.hooks.get slot = (next.assigned? slot).getD (heap.hooks.get slot) := by
  cases next with
  | request route request =>
      rw [(step_request route request heap).1]
      rfl
  | isNoHeap => rfl
  | record layout => rfl
  | set other hook =>
      rw [step, Hooks.get_set, Step.assigned?]
      split_ifs <;> rfl
  | reset hooks => rfl

/-- After any steps a slot holds what was last put into it. -/
theorem run_hooks_get (slot : Slot) (steps : List Step) (heap : Heap) :
    (run steps heap).2.hooks.get slot = lastAssigned slot (heap.hooks.get slot) steps := by
  induction steps generalizing heap with
  | nil => rfl
  | cons first rest ih =>
      rw [lastAssigned_cons, ← step_hooks_get]
      exact ih _

/-! ## What a step leaves alone -/

theorem step_blocks (next : Step) (heap : Heap) : (step next heap).2.2.blocks = heap.blocks := by
  cases next with
  | request route request => exact (step_request route request heap).2
  | isNoHeap => rfl
  | record layout => rfl
  | set slot hook => rfl
  | reset hooks => rfl

/-- No step changes a byte of any block, and every report shows the blocks as they were. -/
theorem run_blocks (steps : List Step) (heap : Heap) :
    (∀ report ∈ (run steps heap).1, report.blocks = heap.blocks) ∧
      (run steps heap).2.blocks = heap.blocks := by
  induction steps generalizing heap with
  | nil => simp [run]
  | cons first rest ih =>
      obtain ⟨reported, last⟩ := ih (step first heap).2.2
      rw [step_blocks] at reported last
      refine ⟨?_, last⟩
      rw [run, List.forall_mem_cons]
      exact ⟨step_blocks first heap, reported⟩

theorem run_concat (steps : List Step) (next : Step) (heap : Heap) :
    let now := (run steps heap).2
    run (steps ++ [next]) heap =
      ((run steps heap).1 ++ [⟨(step next now).1, (step next now).2.1, heap.blocks⟩],
        (step next now).2.2) := by
  induction steps generalizing heap with
  | nil => simp [run, step_blocks]
  | cons first rest ih => simp [run, ih, step_blocks]

/-! ## Requests that come to nothing -/

/-- A step, taken after some others, that gives an answer and does nothing else: no scripted hook
notes it, and the heap stays as it was. -/
def Fruitless (heap : Heap) (steps : List Step) (next : Step) (answer : Answer) : Prop :=
  run (steps ++ [next]) heap =
    ((run steps heap).1 ++ [⟨answer, [], heap.blocks⟩], (run steps heap).2)

/-- Whether after some steps every request on a route comes to nothing: whatever its size and its
pointer, it returns null, or nothing if it is a release. -/
structure Refusing (heap : Heap) (steps : List Step) (route : Route) : Prop where
  alloc : ∀ size, Fruitless heap steps (.request route (.alloc size)) (.address 0)
  realloc : ∀ pointer size,
    Fruitless heap steps (.request route (.realloc pointer size)) (.address 0)
  free : ∀ pointer, Fruitless heap steps (.request route (.free pointer)) .done

variable {heap : Heap} {steps : List Step} {route : Route}

theorem fruitless_of_inert {request : Request}
    (inert : (route.resolve (run steps heap).2).get request.slot = .inert) :
    Fruitless heap steps (.request route request) (refuse request) := by
  rw [Fruitless, run_concat]
  simp [step, inert]

theorem refusing_of_noHeap (inert : route.resolve (run steps heap).2 = .noHeap) :
    Refusing heap steps route where
  alloc size := by
    apply fruitless_of_inert
    rw [inert]
    rfl
  realloc pointer size := by
    apply fruitless_of_inert
    rw [inert]
    rfl
  free pointer := by
    apply fruitless_of_inert
    rw [inert]
    rfl

/-- After any steps from any start, the caller's hooks are told apart exactly: they can hand out no
memory if and only if no slot holds a scripted hook, which is decided by what was last put into it.
As long as this is so every request through them is refused. Requests through the exported symbols
and to the inert hooks are always refused. No step changes a byte of any block. -/
theorem refusing_iff_none_scripted (heap : Heap) (steps : List Step) :
    ∃ flag, Fruitless heap steps .isNoHeap (.flag flag) ∧
      (flag = true ↔ ∀ slot, (run steps heap).2.hooks.get slot ≠ .scripted) ∧
      (∀ slot, (run steps heap).2.hooks.get slot =
        lastAssigned slot (heap.hooks.get slot) steps) ∧
      (flag = true → Refusing heap steps .hooks) ∧
      Refusing heap steps .exported ∧
      Refusing heap steps .inert ∧
      ∀ report ∈ (run steps heap).1, report.blocks = heap.blocks := by
  refine ⟨(run steps heap).2.hooks.isNoHeap, run_concat steps .isNoHeap heap,
    Hooks.isNoHeap_iff _, fun slot => run_hooks_get slot steps heap, ?_,
    refusing_of_noHeap rfl, refusing_of_noHeap rfl, (run_blocks steps heap).1⟩
  intro no_heap
  apply refusing_of_noHeap
  exact of_decide_eq_true no_heap

end Heap

end StaticOpus
