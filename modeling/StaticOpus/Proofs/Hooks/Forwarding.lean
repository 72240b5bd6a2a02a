import StaticOpus.Proofs.Hooks.NoHeap

/-!
# Requests are forwarded exactly

A request reaches a scripted hook exactly if it is made through the caller's hooks and the slot of
its kind holds the scripted hook at that moment. The hook then notes the request as it was made. The
addresses that scripted hooks hand out over a whole run are those of their lists, in order and
without a gap, and null after the end of the list; every other request for memory returns null and
takes no address.

## Implementation notes

Which requests reach a scripted hook is told from the steps alone, by what was last put into each
slot. Which addresses they got is then read off the reports.
-/

namespace StaticOpus.Heap

variable {heap : Heap} {slot : Slot}

/-- The request of a step that reaches a scripted hook, where `held` tells what each slot holds. -/
def Step.forwarded? (held : Slot → Hook) : Step → Option Request
  | .request .hooks asked => if held asked.slot = .scripted then some asked else none
  | _ => none

/-- What each slot holds after some steps. -/
def heldAfter (hooks : Hooks) (steps : List Step) (slot : Slot) : Hook :=
  lastAssigned slot (hooks.get slot) steps

/-- The addresses that the scripted hook of a slot still has to give. -/
def replies (heap : Heap) : Slot → List Nat
  | .alloc => heap.allocReplies
  | .realloc => heap.reallocReplies
  | .free => []

/-! ## One step -/

theorem Step.forwarded?_eq_some_iff {held : Slot → Hook} {next : Step} {asked : Request} :
    next.forwarded? held = some asked ↔
      next = .request .hooks asked ∧ held asked.slot = .scripted := by
  constructor
  · intro h
    unfold forwarded? at h
    split at h
    · split at h
      · obtain rfl := Option.some.inj h
        exact ⟨rfl, ‹_›⟩
      · cases h
    · cases h
  · rintro ⟨rfl, scripted⟩
    exact if_pos scripted

/-- A request that is not forwarded finds an inert hook, whichever way it goes. -/
theorem resolve_of_not_forwarded {route : Route} {asked : Request}
    (h : (Step.request route asked).forwarded? heap.hooks.get = none) :
    (route.resolve heap).get asked.slot = .inert := by
  cases route with
  | hooks =>
      cases held : heap.hooks.get asked.slot with
      | inert => exact held
      | scripted => simp [Step.forwarded?, held] at h
  | inert => cases asked <;> rfl
  | exported => cases asked <;> rfl

/-- A step that forwards no request has none noted and takes no address, and what it asks for is
refused. -/
theorem step_of_not_forwarded {next : Step} (h : next.forwarded? heap.hooks.get = none) :
    (step next heap).2.1 = [] ∧ (∀ slot, (step next heap).2.2.replies slot = heap.replies slot) ∧
      ∀ route asked, next = .request route asked → (step next heap).1 = refuse asked := by
  cases next with
  | request route asked =>
      have refused : step (.request route asked) heap = (refuse asked, [], heap) := by
        simp only [step, resolve_of_not_forwarded h]
      rw [refused]
      refine ⟨rfl, fun _ => rfl, ?_⟩
      rintro _ _ ⟨⟩
      rfl
  | isNoHeap => exact ⟨rfl, fun _ => rfl, by simp⟩
  | record layout => exact ⟨rfl, fun _ => rfl, by simp⟩
  | set slot hook => exact ⟨rfl, fun other => by cases other <;> rfl, by simp⟩
  | reset hooks => exact ⟨rfl, fun other => by cases other <;> rfl, by simp⟩

/-- A forwarded request is noted. If it is one for memory it gets the next address of its own list,
and the other list stays as it is. -/
theorem step_of_forwarded {next : Step} {asked : Request}
    (h : next.forwarded? heap.hooks.get = some asked) :
    (step next heap).2.1 = [asked] ∧
      (asked.slot ≠ .free →
        (step next heap).1 = .address ((heap.replies asked.slot).headD 0)) ∧
      ∀ slot, (step next heap).2.2.replies slot =
        if asked.slot = slot then (heap.replies slot).tail else heap.replies slot := by
  obtain ⟨rfl, scripted⟩ := Step.forwarded?_eq_some_iff.mp h
  have served : step (.request .hooks asked) heap =
      ((heap.serve asked).1, [asked], (heap.serve asked).2) := by
    simp only [step, Route.resolve, scripted]
  rw [served]
  refine ⟨rfl, ?_, ?_⟩
  · intro memory
    cases asked with
    | alloc size => rfl
    | realloc pointer size => rfl
    | free pointer => exact absurd rfl memory
  · intro slot
    cases asked <;> cases slot <;> rfl

/-! ## A whole run -/

/-- What each report of a run says is what its step did after the steps before it. -/
theorem run_getElem? {steps : List Step} {n : Nat} {next : Step} (h : steps[n]? = some next)
    (heap : Heap) :
    let now := (run (steps.take n) heap).2
    (run steps heap).1[n]? = some ⟨(step next now).1, (step next now).2.1, heap.blocks⟩ := by
  induction steps generalizing n heap with
  | nil => simp at h
  | cons first rest ih =>
      cases n with
      | zero =>
          obtain rfl := Option.some.inj h
          exact congrArg (fun blocks => some (Report.mk _ _ blocks)) (step_blocks first heap)
      | succ n =>
          have later := ih h (step first heap).2.2
          rw [step_blocks] at later
          exact later

theorem get_run_take (heap : Heap) (steps : List Step) (n : Nat) :
    (run (steps.take n) heap).2.hooks.get = heldAfter heap.hooks (steps.take n) :=
  funext fun slot => run_hooks_get slot _ heap

/-- A scripted hook of this kind has noted the step's request. -/
def Report.servedBy (slot : Slot) (report : Report) : Bool := report.calls.any (·.slot = slot)

/-- The answers to the requests that the scripted hook of a slot has served, in order. -/
def answersOf (slot : Slot) (reports : List Report) : List Answer :=
  (reports.filter (Report.servedBy slot)).map (·.answer)

/-- The first addresses that a list hands out: its own in order, and null after them. -/
def handedOut (addresses : List Nat) (count : Nat) : List Nat :=
  addresses.take count ++ List.replicate (count - addresses.length) 0

theorem handedOut_succ (addresses : List Nat) (count : Nat) :
    handedOut addresses (count + 1) = addresses.headD 0 :: handedOut addresses.tail count := by
  cases addresses with
  | nil => simp [handedOut, List.replicate_succ]
  | cons first rest => simp [handedOut]

/-- The answers hand out the addresses of a list in order, null after its end, and leave just those
that they have not handed out. -/
structure HandsOut (addresses left : List Nat) (answers : List Answer) : Prop where
  inOrder : answers = (handedOut addresses answers.length).map .address
  left_eq : left = addresses.drop answers.length

theorem HandsOut.cons {addresses left : List Nat} {answers : List Answer}
    (h : HandsOut addresses.tail left answers) :
    HandsOut addresses left (.address (addresses.headD 0) :: answers) where
  inOrder := by
    rw [List.length_cons, handedOut_succ, List.map_cons, ← h.inOrder]
  left_eq := by
    rw [h.left_eq, List.length_cons, List.drop_tail]

/-- Over a whole run the scripted hook of a slot hands out its addresses in order, whatever is done
between two requests for them. -/
theorem run_handsOut (memory : slot ≠ .free) (steps : List Step) (heap : Heap) :
    HandsOut (heap.replies slot) ((run steps heap).2.replies slot)
      (answersOf slot (run steps heap).1) := by
  induction steps generalizing heap with
  | nil => exact ⟨by simp [run, answersOf, handedOut], rfl⟩
  | cons first rest ih =>
      -- what the rest hands out starts from the addresses that the first step leaves
      have later := ih (step first heap).2.2
      cases reached : first.forwarded? heap.hooks.get with
      | none =>
          obtain ⟨calls, kept, -⟩ := step_of_not_forwarded reached
          rw [kept slot] at later
          simpa [run, answersOf, Report.servedBy, calls] using later
      | some asked =>
          obtain ⟨calls, answered, taken⟩ := step_of_forwarded reached
          rw [taken slot] at later
          by_cases same : asked.slot = slot
          · rw [if_pos same] at later
            have answer := answered (same ▸ memory)
            rw [same] at answer
            simpa [run, answersOf, Report.servedBy, calls, same, answer] using later.cons
          · rw [if_neg same] at later
            simpa [run, answersOf, Report.servedBy, calls, same] using later

/-- The request of a step is refused: one for memory gets null, and a release gets nothing. -/
structure Report.Refuses (next : Step) (report : Report) : Prop where
  alloc : ∀ route size, next = .request route (.alloc size) → report.answer = .address 0
  realloc : ∀ route pointer size, next = .request route (.realloc pointer size) →
    report.answer = .address 0
  free : ∀ route pointer, next = .request route (.free pointer) → report.answer = .done

theorem Report.refuses_of_answer {next : Step} {report : Report}
    (refused : ∀ route asked, next = .request route asked → report.answer = refuse asked) :
    report.Refuses next where
  alloc route size := refused route (.alloc size)
  realloc route pointer size := refused route (.realloc pointer size)
  free route pointer := refused route (.free pointer)

/-- Requests are forwarded exactly. From every start, and at every place of every run, a scripted
hook notes a request if that is made through the caller's hooks and its slot was last given the
scripted hook: once, and as it was made. No hook notes anything else, and every other request is
refused: one for memory gets null. The answers of scripted hooks hand out the addresses of the two
lists in order, each list to the requests of its own kind, with null after its end. -/
theorem requests_forwarded_exactly (heap : Heap) (steps : List Step) :
    let reports := (run steps heap).1
    let after := (run steps heap).2
    (∀ (n : Nat) (next : Step), steps[n]? = some next → ∃ report, reports[n]? = some report ∧
      let reached := next.forwarded? (heldAfter heap.hooks (steps.take n))
      report.calls = reached.toList ∧
      (reached = none → report.Refuses next)) ∧
    HandsOut heap.allocReplies after.allocReplies (answersOf .alloc reports) ∧
    HandsOut heap.reallocReplies after.reallocReplies (answersOf .realloc reports) := by
  have alloc_memory : Slot.alloc ≠ .free := by decide
  have realloc_memory : Slot.realloc ≠ .free := by decide
  refine ⟨?_, run_handsOut alloc_memory steps heap, run_handsOut realloc_memory steps heap⟩
  intro n next here
  refine ⟨_, run_getElem? here heap, ?_⟩
  rw [← get_run_take]
  cases reached : next.forwarded? (run (steps.take n) heap).2.hooks.get with
  | none =>
      obtain ⟨calls, -, refused⟩ := step_of_not_forwarded reached
      exact ⟨calls, fun _ => Report.refuses_of_answer refused⟩
  | some asked =>
      refine ⟨(step_of_forwarded reached).1, ?_⟩
      intro unreached
      cases unreached

/-- A hook that is put back into its slot goes on with its own list, where it has left it. What is
asked for meanwhile, or through the exported symbols, or of a slot whose hook is inert, is null. -/
theorem forwarded_around_reset :
    let steps : List Step :=
      [.set .alloc .scripted, .request .hooks (.alloc 8), .request .exported (.alloc 9),
        .request .hooks (.realloc ⟨"0"⟩ 7), .reset .noHeap, .request .hooks (.alloc 10),
        .set .alloc .scripted, .set .realloc .scripted, .request .hooks (.alloc 11),
        .request .hooks (.realloc ⟨"16"⟩ 12), .request .hooks (.alloc 13)]
    let heap : Heap := { hooks := .noHeap, allocReplies := [100, 200], reallocReplies := [300] }
    let reports := (run steps heap).1
    (∃ report, reports[9]? = some report ∧ report.calls = [.realloc ⟨"16"⟩ 12]) ∧
      (∀ n ∈ [2, 3, 5], ∃ report, reports[n]? = some report ∧ report.calls = [] ∧
        report.answer = .address 0) ∧
      answersOf .alloc reports = [.address 100, .address 200, .address 0] ∧
      answersOf .realloc reports = [.address 300] := by
  intro steps heap reports
  obtain ⟨placed, allocs, reallocs⟩ := requests_forwarded_exactly heap steps
  refine ⟨?_, ?_, allocs.inOrder, reallocs.inOrder⟩
  · obtain ⟨report, reported, calls, -⟩ := placed 9 _ rfl
    exact ⟨report, reported, calls⟩
  · simp only [List.forall_mem_cons, List.not_mem_nil, false_imp_iff, implies_true, and_true]
    refine ⟨?_, ?_, ?_⟩
    · obtain ⟨report, reported, calls, refused⟩ := placed 2 _ rfl
      exact ⟨report, reported, calls, (refused rfl).alloc _ _ rfl⟩
    · obtain ⟨report, reported, calls, refused⟩ := placed 3 _ rfl
      exact ⟨report, reported, calls, (refused rfl).realloc _ _ _ rfl⟩
    · obtain ⟨report, reported, calls, refused⟩ := placed 5 _ rfl
      exact ⟨report, reported, calls, (refused rfl).alloc _ _ rfl⟩

end StaticOpus.Heap
