import Mathlib.Data.List.Basic
import StaticOpus.Task

/-!
# The calls of a plan

The stages of a plan that call cargo get the replies in their order, one each, until the first that
fails. So what a plan calls, how it ends and which summaries it prints can be told from its calls
and the replies alone.

## Implementation notes

The plans here only print and call. What they print besides summaries is not told, so a stage is
asked not to print anything that could be taken for one.
-/

namespace StaticOpus

/-- A call as a plan intends it: its title, its arguments, and whether its tests are summed up. -/
structure PlannedCall where
  title : String
  command : List String
  summed : Bool

/-- Calls with the replies that they get if all of them are made. A call beyond the replies succeeds
and prints nothing. -/
def answered : List PlannedCall → List Reply → List (PlannedCall × Reply)
  | [], _ => []
  | call :: rest, replies => (call, replies.headD {}) :: answered rest replies.tail

/-- The answered calls before the first that failed. -/
def passed (answers : List (PlannedCall × Reply)) : List (PlannedCall × Reply) :=
  answers.takeWhile (·.2.succeeded)

/-- How a plan ends whose calls are answered so. -/
def verdict (answers : List (PlannedCall × Reply)) : Except Failure Unit :=
  match answers.find? (!·.2.succeeded) with
  | none => .ok ()
  | some (call, _) => .error (.step call.title)

section Answers

variable {call : PlannedCall} {reply : Reply} {rest : List (PlannedCall × Reply)}

@[simp] theorem passed_nil : passed [] = [] := rfl

theorem passed_cons_of_succeeded (h : reply.succeeded = true) :
    passed ((call, reply) :: rest) = (call, reply) :: passed rest :=
  List.takeWhile_cons_of_pos h

theorem passed_cons_of_failed (h : reply.succeeded = false) :
    passed ((call, reply) :: rest) = [] := by
  apply List.takeWhile_cons_of_neg
  simp [h]

theorem verdict_cons_of_succeeded (h : reply.succeeded = true) :
    verdict ((call, reply) :: rest) = verdict rest := by
  simp [verdict, h]

theorem verdict_cons_of_failed (h : reply.succeeded = false) :
    verdict ((call, reply) :: rest) = .error (.step call.title) := by
  simp [verdict, h]

theorem verdict_eq_ok_iff {answers : List (PlannedCall × Reply)} :
    verdict answers = .ok () ↔ ∀ answer ∈ answers, answer.2.succeeded = true := by
  induction answers with
  | nil => simp [verdict]
  | cons first rest ih =>
      rw [List.forall_mem_cons]
      cases h : first.2.succeeded with
      | true => simp [verdict_cons_of_succeeded h, ih]
      | false => simp [verdict_cons_of_failed h]

/-- The first call that failed is the one right after those that passed. -/
theorem find?_failed (answers : List (PlannedCall × Reply)) :
    answers.find? (!·.2.succeeded) = answers[(passed answers).length]? := by
  induction answers with
  | nil => rfl
  | cons first rest ih =>
      cases result : first.2.succeeded with
      | true => simp [passed_cons_of_succeeded result, result, ih]
      | false => simp [passed_cons_of_failed result, result]

/-- The call right after those that passed is the one that a plan fails with. -/
theorem verdict_of_getElem? {answers : List (PlannedCall × Reply)}
    {failing : PlannedCall × Reply} (h : answers[(passed answers).length]? = some failing) :
    verdict answers = .error (.step failing.1.title) := by
  rw [verdict, find?_failed, h]

end Answers

/-! ## Summaries among the printed lines -/

/-- The text of a line, whatever its looks. -/
def Line.text (line : Line) : String := String.join (line.spans.map (·.text))

/-- Whether a line of the output is indented as a summary is. -/
def Line.isSummary (line : Line) : Bool :=
  line.channel = .output && "    ".toList.isPrefixOf line.text.toList

/-- The texts of the summaries among some lines, in order. -/
def summaries (lines : List Line) : List String := (lines.filter Line.isSummary).map Line.text

theorem summaries_append (first later : List Line) :
    summaries (first ++ later) = summaries first ++ summaries later := by
  simp [summaries]

theorem summaries_summaryLine (reply : Reply) :
    summaries [summaryLine reply] = ["    " ++ testSummary reply.stdout] := by
  simp [summaries, summaryLine, Line.isSummary, Line.text, List.isPrefixOf]

theorem Invocation.summaries_passedLine (invocation : Invocation) :
    summaries [invocation.passedLine] = [] := by
  simp [summaries, passedLine, Line.output, Line.isSummary, Line.text, List.isPrefixOf]

theorem Invocation.summaries_failedLines (invocation : Invocation) (reply : Reply) :
    summaries (invocation.failedLines reply) = [] := by
  simp [summaries, failedLines, Line.errors, Line.isSummary]

/-- The summaries of the answered calls whose tests are summed up, in order. -/
def summed (answers : List (PlannedCall × Reply)) : List String :=
  (answers.filter (·.1.summed)).map fun answer => "    " ++ testSummary answer.2.stdout

/-- The summary that is due after a call that succeeded. -/
def summaryDue (call : PlannedCall) (reply : Reply) : List String :=
  if call.summed then ["    " ++ testSummary reply.stdout] else []

theorem summed_eq_flatMap (answers : List (PlannedCall × Reply)) :
    summed answers = answers.flatMap fun answer => summaryDue answer.1 answer.2 := by
  induction answers with
  | nil => rfl
  | cons first rest ih =>
      rw [List.flatMap_cons, ← ih]
      cases h : first.1.summed <;> simp [summed, summaryDue, h]

/-! ## One stage -/

namespace Invocation

/-- The lines around a call that gets this reply. -/
def lines (invocation : Invocation) (reply : Reply) : List Line :=
  invocation.begunLine ::
    if reply.succeeded then [invocation.passedLine] else invocation.failedLines reply

theorem summaries_lines {invocation : Invocation}
    (plain : summaries [invocation.begunLine] = []) (reply : Reply) :
    summaries (invocation.lines reply) = [] := by
  rw [lines, ← List.singleton_append, summaries_append, plain]
  cases reply.succeeded with
  | true => exact invocation.summaries_passedLine
  | false => exact invocation.summaries_failedLines reply

end Invocation

namespace Stage

/-- The call that a stage makes. -/
def call? : Stage → Option PlannedCall
  | .invoke invocation _ => some ⟨invocation.title, invocation.command, false⟩
  | .runTests invocation => some ⟨invocation.title, invocation.command, true⟩
  | _ => none

/-- The lines that a stage prints, where its call gets this reply if it makes one. -/
def lines : Stage → Reply → List Line
  | .print lines, _ => lines
  | .invoke invocation hint, reply =>
    invocation.lines reply ++ if reply.succeeded then [] else hint
  | .runTests invocation, reply =>
    invocation.lines reply ++ if reply.succeeded then [summaryLine reply] else []
  | _, _ => []

/-- Whether a stage only prints, or makes a call that the system can pass on. -/
def Callable : Stage → Prop
  | .print _ => True
  | .invoke invocation _ => invocation.isPassable = true
  | .runTests invocation => invocation.isPassable = true
  | _ => False

/-- Whether a stage only prints, or makes a call that the system can pass on, and prints nothing
that could be taken for a summary. -/
def Orderly : Stage → Prop
  | .print lines => summaries lines = []
  | .invoke invocation hint =>
    invocation.isPassable = true ∧ summaries [invocation.begunLine] = [] ∧ summaries hint = []
  | .runTests invocation =>
    invocation.isPassable = true ∧ summaries [invocation.begunLine] = []
  | .headers _ => False
  | .fail _ => False

end Stage

namespace Workspace

variable {workspace : Workspace} {replies : List Reply}

/-- The workspace after some calls have been made and some lines printed, and with these replies
still to come. The files are untouched. -/
def advance (commands : List (List String)) (lines : List Line) (left : List Reply)
    (workspace : Workspace) : Workspace :=
  { workspace with
    cargo := some left, calls := workspace.calls ++ commands, lines := workspace.lines ++ lines }

theorem advance_advance (first later : List (List String)) (printed more : List Line)
    (middle left : List Reply) (workspace : Workspace) :
    (workspace.advance first printed middle).advance later more left =
      workspace.advance (first ++ later) (printed ++ more) left := by
  simp [advance, List.append_assoc]

theorem print_eq_advance (ready : workspace.cargo = some replies) (lines : List Line) :
    workspace.print lines = workspace.advance [] lines replies := by
  simp [print, advance, ready]

/-- A call is made and takes the next reply, whatever that is. -/
theorem invoke_eq {invocation : Invocation} (passable : invocation.isPassable = true)
    (ready : workspace.cargo = some replies) {reply : Reply} (next : replies.headD {} = reply) :
    workspace.invoke invocation =
      (if reply.succeeded then .ok reply else .error (.step invocation.title),
        workspace.advance [invocation.command] (invocation.lines reply) replies.tail) := by
  let begun := workspace.print [invocation.begunLine]
  have response : begun.cargo.call invocation = .ok (reply, some replies.tail) := by
    rw [show begun.cargo = some replies from ready, ← next]
    cases replies <;> simp [Cargo.call, passable]
  simp only [invoke]
  rw [response]
  cases result : reply.succeeded with
  | true => simp [result, print, noteCall, advance, Invocation.lines]
  | false => simp [result, print, noteCall, advance, Invocation.lines]

end Workspace

namespace Stage

variable {stage : Stage} {workspace : Workspace} {replies : List Reply}

/-- A stage that makes no call succeeds, and leaves the replies to the stages after it. -/
theorem run_of_silent (callable : stage.Callable) (silent : stage.call? = none)
    (ready : workspace.cargo = some replies) :
    stage.run workspace = (.ok (), workspace.advance [] (stage.lines {}) replies) := by
  cases stage with
  | print lines => exact congrArg (Prod.mk (Except.ok ())) (Workspace.print_eq_advance ready lines)
  | invoke invocation hint => cases silent
  | runTests invocation => cases silent
  | headers check => exact callable.elim
  | fail failure => exact callable.elim

/-- A stage that makes a call takes the next reply and ends as that says. -/
theorem run_of_call {call : PlannedCall} (callable : stage.Callable)
    (calls : stage.call? = some call) (ready : workspace.cargo = some replies)
    {reply : Reply} (next : replies.headD {} = reply) :
    stage.run workspace =
      (if reply.succeeded then .ok () else .error (.step call.title),
        workspace.advance [call.command] (stage.lines reply) replies.tail) := by
  cases stage with
  | print lines => cases calls
  | headers check => cases calls
  | fail failure => cases calls
  | invoke invocation hint =>
      cases calls
      simp only [run, Workspace.invoke_eq callable ready next]
      cases result : reply.succeeded with
      | true => simp [lines, result]
      | false => simp [lines, result, Workspace.advance, Workspace.print]
  | runTests invocation =>
      cases calls
      simp only [run, Workspace.invoke_eq callable ready next]
      cases result : reply.succeeded with
      | true => simp [lines, result, Workspace.advance, Workspace.print]
      | false => simp [lines, result]

end Stage

/-! ## A whole plan -/

namespace Plan

variable {plan : Plan} {workspace : Workspace} {replies : List Reply}

/-- The lines that a plan prints on some replies. -/
def transcript : Plan → List Reply → List Line
  | [], _ => []
  | stage :: rest, replies =>
    match stage.call? with
    | none => stage.lines {} ++ transcript rest replies
    | some _ =>
      let reply := replies.headD {}
      stage.lines reply ++ if reply.succeeded then transcript rest replies.tail else []

/-- Two plans one after the other are one plan. -/
theorem run_append (first later : Plan) (workspace : Workspace) :
    (first ++ later : Plan).run workspace =
      match first.run workspace with
      | (.ok (), after) => later.run after
      | (.error failure, after) => (.error failure, after) := by
  induction first generalizing workspace with
  | nil => rfl
  | cons stage rest ih =>
      rw [List.cons_append, run, run]
      rcases stage.run workspace with ⟨_ | _, after⟩
      · rfl
      · exact ih after

/-- A plan makes its calls up to the first that fails, takes one reply for each, and ends as these
say. -/
theorem run_of_callable (callable : ∀ stage ∈ plan, stage.Callable)
    (ready : workspace.cargo = some replies) :
    let calls := plan.filterMap Stage.call?
    let answers := answered calls replies
    let commands := (calls.take ((passed answers).length + 1)).map (·.command)
    plan.run workspace = (verdict answers,
      workspace.advance commands (plan.transcript replies) (replies.drop commands.length)) := by
  -- the replies are used up by the calls alone, so a silent stage leaves them for the rest
  induction plan generalizing workspace replies with
  | nil =>
      obtain ⟨cargo, tree, headers, calls, lines⟩ := workspace
      obtain rfl : cargo = some replies := ready
      simp [run, answered, verdict, transcript, Workspace.advance]
  | cons stage rest ih =>
      rw [List.forall_mem_cons] at callable
      cases calls : stage.call? with
      | none =>
          have first := Stage.run_of_silent callable.1 calls ready
          simp only [run, first, transcript, calls, List.filterMap_cons_none calls]
          rw [ih callable.2 rfl, Workspace.advance_advance]
          rfl
      | some call =>
          obtain ⟨reply, next⟩ : ∃ reply, replies.headD {} = reply := ⟨_, rfl⟩
          have first := Stage.run_of_call callable.1 calls ready next
          simp only [run, first, transcript, calls, List.filterMap_cons_some calls, answered, next]
          cases result : reply.succeeded with
          | true =>
              simp only [if_true, verdict_cons_of_succeeded result, passed_cons_of_succeeded result]
              rw [ih callable.2 rfl, Workspace.advance_advance]
              simp only [List.length_cons, List.take_succ_cons, List.map_cons,
                List.singleton_append, List.drop_tail]
          | false =>
              simp [verdict_cons_of_failed result, passed_cons_of_failed result]

/-- What a plan prints of some kind: what is due after each call that passed, and what is due after
the call that failed, if one did. -/
theorem view_transcript {β : Type} (view : List Line → List β)
    (due owed : PlannedCall → Reply → List β) (view_nil : view [] = [])
    (view_append : ∀ first later, view (first ++ later) = view first ++ view later)
    (silent : ∀ stage ∈ plan, stage.call? = none → view (stage.lines {}) = [])
    (calling : ∀ stage ∈ plan, ∀ call reply, stage.call? = some call →
      view (stage.lines reply) = if reply.succeeded then due call reply else owed call reply) :
    let answers := answered (plan.filterMap Stage.call?) replies
    view (plan.transcript replies) =
      ((passed answers).flatMap fun answer => due answer.1 answer.2) ++
        match answers.find? (!·.2.succeeded) with
        | none => []
        | some (call, reply) => owed call reply := by
  induction plan generalizing replies with
  | nil => simp [transcript, answered, view_nil]
  | cons stage rest ih =>
      rw [List.forall_mem_cons] at silent calling
      cases calls : stage.call? with
      | none =>
          simp only [transcript, calls, List.filterMap_cons_none calls, view_append,
            silent.1 calls, List.nil_append]
          exact ih silent.2 calling.2
      | some call =>
          obtain ⟨reply, next⟩ : ∃ reply, replies.headD {} = reply := ⟨_, rfl⟩
          simp only [transcript, calls, List.filterMap_cons_some calls, view_append, answered, next,
            calling.1 call reply calls]
          cases result : reply.succeeded with
          | true =>
              rw [passed_cons_of_succeeded result]
              simp [ih silent.2 calling.2, result]
          | false =>
              rw [passed_cons_of_failed result]
              simp [view_nil, result]

end Plan

/-! ## Plans with summaries -/

theorem Stage.Orderly.callable {stage : Stage} (orderly : stage.Orderly) : stage.Callable := by
  cases stage with
  | print lines => trivial
  | invoke invocation hint => exact orderly.1
  | runTests invocation => exact orderly.1
  | headers check => exact orderly
  | fail failure => exact orderly

theorem Stage.Orderly.summaries_of_silent {stage : Stage} (orderly : stage.Orderly)
    (silent : stage.call? = none) : summaries (stage.lines {}) = [] := by
  cases stage with
  | print lines => exact orderly
  | invoke invocation hint => cases silent
  | runTests invocation => cases silent
  | headers check => rfl
  | fail failure => rfl

theorem Stage.Orderly.summaries_of_call {stage : Stage} (orderly : stage.Orderly)
    {call : PlannedCall} (calls : stage.call? = some call) (reply : Reply) :
    summaries (stage.lines reply) = if reply.succeeded then summaryDue call reply else [] := by
  cases stage with
  | print lines => cases calls
  | headers check => cases calls
  | fail failure => cases calls
  | invoke invocation hint =>
      cases calls
      obtain ⟨-, plain, hint_plain⟩ := orderly
      simp only [lines, summaries_append, Invocation.summaries_lines plain reply]
      cases reply.succeeded with
      | true => rfl
      | false => simpa using hint_plain
  | runTests invocation =>
      cases calls
      simp only [lines, summaries_append, Invocation.summaries_lines orderly.2 reply]
      cases reply.succeeded with
      | true => exact summaries_summaryLine reply
      | false => rfl

namespace Workspace

/-- What has been called and summed up on the way from one workspace to another. The files are
untouched. -/
structure Advanced (before after : Workspace) (commands : List (List String))
    (sums : List String) : Prop where
  calls : after.calls = before.calls ++ commands
  summaries : summaries after.lines = StaticOpus.summaries before.lines ++ sums
  tree : after.tree = before.tree
  headers : after.headers = before.headers

end Workspace

namespace Plan

variable {plan : Plan} {workspace : Workspace} {replies : List Reply}

/-- A plan makes its calls up to the first that fails and ends as that says, and it prints the
summaries of those before it. -/
theorem run_of_orderly (orderly : ∀ stage ∈ plan, stage.Orderly)
    (ready : workspace.cargo = some replies) :
    let answers := answered (plan.filterMap Stage.call?) replies
    ∃ after, plan.run workspace = (verdict answers, after) ∧
      workspace.Advanced after
        (((plan.filterMap Stage.call?).take ((passed answers).length + 1)).map (·.command))
        (summed (passed answers)) := by
  intro answers
  refine ⟨_, run_of_callable (fun stage mem => (orderly stage mem).callable) ready, ?_⟩
  have printed : summaries (plan.transcript replies) = summed (passed answers) := by
    rw [view_transcript summaries summaryDue (fun _ _ => []) rfl summaries_append
      (fun stage mem => (orderly stage mem).summaries_of_silent)
      (fun stage mem _ reply calls => (orderly stage mem).summaries_of_call calls reply),
      summed_eq_flatMap]
    cases answers.find? (!·.2.succeeded) <;> exact List.append_nil _
  exact ⟨rfl, by rw [← printed]; exact summaries_append _ _, rfl, rfl⟩

end Plan

end StaticOpus
