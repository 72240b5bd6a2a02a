import Mathlib.Data.List.TakeWhile
import StaticOpus.Proofs.Header.Check
import StaticOpus.Proofs.Task.Calls
import StaticOpus.Task.Plans

/-!
# A check of everything

A check builds the package for every target and feature combination, looks at the headers, and then
has cargo lint and look at the formatting. It stops at the first of these stages that fails, and the
error stream tells of that stage alone. A check never changes a file.

## Implementation notes

The outputs of a failed call are passed on as they are and may hold any text, also that of a hint.
So what the error stream receives is told in full, and a hint is known by its place.
-/

namespace StaticOpus

/-! ## What the error stream receives -/

/-- What the error stream receives of a failed call: that it failed, and both of its outputs. -/
def failureText (title : String) (reply : Reply) : String :=
  "  ✗ " ++ title ++ " failed\n" ++ "\n" ++ Text.Utf8.lossyString reply.stdout ++ "\n" ++
    Text.Utf8.lossyString reply.stderr ++ "\n"

theorem Invocation.printed_lines (invocation : Invocation) (reply : Reply) :
    printed false .errors (invocation.lines reply) =
      if reply.succeeded then "" else failureText invocation.title reply := by
  rw [lines, begunLine, printed_output_cons]
  cases reply.succeeded with
  | true => simp [passedLine]
  | false =>
      apply String.toList_inj.mp
      simp [failedLines, failureText]

/-- Whether a stage writes to the error stream at most the account of its own failed call. -/
def Stage.Unhinted : Stage → Prop
  | .print lines => printed false .errors lines = ""
  | .invoke _ hint => hint = []
  | _ => False

/-! ## What a check leaves alone -/

theorem Workspace.invoke_tree (invocation : Invocation) (workspace : Workspace) :
    (workspace.invoke invocation).2.tree = workspace.tree := by
  simp only [invoke]
  split
  · rfl
  · split_ifs <;> rfl

theorem Stage.run_tree {stage : Stage} (readOnly : ∀ check, stage = .headers check → check = true)
    (workspace : Workspace) : (stage.run workspace).2.tree = workspace.tree := by
  cases stage with
  | print lines => rfl
  | fail failure => rfl
  | headers check =>
      obtain rfl := readOnly check rfl
      rw [run, Header.syncHeaders_check]
      rfl
  | invoke invocation hint =>
      have called := workspace.invoke_tree invocation
      simp only [run]
      split <;> (next ran => rw [ran] at called; exact called)
  | runTests invocation =>
      have called := workspace.invoke_tree invocation
      simp only [run]
      split <;> (next ran => rw [ran] at called; exact called)

namespace Plan

variable {plan : Plan} {workspace : Workspace} {replies : List Reply}

/-- What the error stream receives of answered calls: the account of the first that failed. -/
def accountText (answers : List (PlannedCall × Reply)) : String :=
  match answers.find? (!·.2.succeeded) with
  | none => ""
  | some (call, reply) => failureText call.title reply

theorem accountText_of_passed {answers : List (PlannedCall × Reply)}
    (passed : ∀ answer ∈ answers, answer.2.succeeded = true) : accountText answers = "" := by
  have none_failed : answers.find? (!·.2.succeeded) = none := by
    simpa [List.find?_eq_none] using passed
  rw [accountText, none_failed]

theorem accountText_of_getElem? {answers : List (PlannedCall × Reply)} {call : PlannedCall}
    {reply : Reply} (h : answers[(passed answers).length]? = some (call, reply)) :
    accountText answers = failureText call.title reply := by
  rw [accountText, find?_failed, h]

/-- A plan without hints writes to the error stream what its failed call comes to, and nothing
else. -/
theorem printed_transcript (unhinted : ∀ stage ∈ plan, stage.Unhinted) (replies : List Reply) :
    printed false .errors (plan.transcript replies) =
      accountText (answered (plan.filterMap Stage.call?) replies) := by
  have silent : ∀ stage ∈ plan, stage.call? = none →
      (printed false .errors (stage.lines {})).toList = [] := by
    intro stage mem quiet
    have here := unhinted stage mem
    cases stage with
    | print lines => exact congrArg String.toList here
    | invoke invocation hint => cases quiet
    | _ => exact here.elim
  have calling : ∀ stage ∈ plan, ∀ call reply, stage.call? = some call →
      (printed false .errors (stage.lines reply)).toList =
        if reply.succeeded then [] else (failureText call.title reply).toList := by
    intro stage mem call reply calls
    have here := unhinted stage mem
    cases stage with
    | invoke invocation hint =>
        obtain rfl : hint = [] := here
        cases calls
        simp only [Stage.lines, ite_self, List.append_nil, invocation.printed_lines]
        split_ifs <;> rfl
    | _ => cases calls <;> exact here.elim
  apply String.toList_inj.mp
  rw [view_transcript (fun lines => (printed false .errors lines).toList) (fun _ _ => [])
      (fun call reply => (failureText call.title reply).toList) rfl (by simp [printed_append])
      silent calling,
    List.flatMap_eq_nil_iff.mpr (fun _ _ => rfl), accountText]
  cases (answered (plan.filterMap Stage.call?) replies).find? (!·.2.succeeded) <;> rfl

/-- A plan that only checks the headers, if it looks at them at all, leaves every file alone. -/
theorem run_tree (readOnly : ∀ stage ∈ plan, ∀ check, stage = .headers check → check = true)
    (workspace : Workspace) : (plan.run workspace).2.tree = workspace.tree := by
  induction plan generalizing workspace with
  | nil => rfl
  | cons stage rest ih =>
      rw [List.forall_mem_cons] at readOnly
      have first := stage.run_tree readOnly.1 workspace
      rw [run]
      split
      · next after ran =>
          rw [ran] at first
          exact (ih readOnly.2 after).trans first
      · next failure after ran =>
          rw [ran] at first
          exact first

end Plan

/-! ## The stages of a check -/

/-- The call that checks the build of the package with some features, for the host or a target. -/
def packageBuild (target : Option String) (features : String) : PlannedCall where
  title :=
    "Checking " ++ target.getD "host target" ++ " [" ++
      (if features = "" then "default" else features) ++ "]"
  command :=
    ["check"] ++ (target.map fun name => ["--target", name]).getD [] ++ ["-p", "opus-shim"] ++
      if features = "" then [] else ["--features", features]
  summed := false

/-- The builds that are checked, in order: for the host and then for each target, every feature
combination and one more. -/
def plannedBuilds : List PlannedCall :=
  ["", "stereo", "custom-support", "stereo,custom-support",
      "stereo,custom-support,tracing,link"].map (packageBuild none) ++
    ["thumbv6m-none-eabi", "thumbv7em-none-eabihf"].flatMap fun target =>
      ["", "stereo", "custom-support", "stereo,custom-support",
        "stereo,custom-support,defmt"].map (packageBuild (some target))

/-- The call that lints. -/
def lintCall : PlannedCall where
  title := "Running clippy (warnings denied)"
  command := ["clippy", "--workspace", "--all-targets", "--", "-D", "warnings"]
  summed := false

/-- The call that looks at the formatting. -/
def formatCall : PlannedCall where
  title := "Checking formatting"
  command := ["fmt", "--all", "--check"]
  summed := false

namespace Plan

variable {workspace : Workspace} {replies : List Reply}

/-- The stages of a check before it looks at the headers. -/
def buildStages : Plan :=
  [heading "🔍 Checking opus-shim builds..."] ++ group hostBuilds ++
    embeddedTargets.flatMap fun target => group (targetBuilds target)

/-- The stages of a check after it has looked at the headers. -/
def lastStages : Plan :=
  [.invoke ⟨"Running clippy (warnings denied)", lintArgs, none⟩ [],
    .invoke ⟨"Checking formatting", formatArgs, none⟩
      [.errors "     Run 'cargo fmt --all' to fix" .plain],
    closing "All checks"]

theorem check_eq : check = buildStages ++ .headers true :: lastStages := rfl

theorem buildStages_calls : buildStages.filterMap Stage.call? = plannedBuilds := rfl

theorem mem_group {invocations : List Invocation} {stage : Stage}
    (mem : stage ∈ group invocations) :
    stage = gap ∨ ∃ invocation ∈ invocations, stage = .invoke invocation [] := by
  rw [group, List.mem_append, List.mem_map, List.mem_singleton] at mem
  rcases mem with ⟨invocation, listed, rfl⟩ | rfl
  · exact Or.inr ⟨invocation, listed, rfl⟩
  · exact Or.inl rfl

/-- A stage before the headers prints on the output alone, or checks a build. -/
theorem cases_of_mem_buildStages {stage : Stage} (mem : stage ∈ buildStages) :
    (∃ lines, stage = .print lines ∧ printed false .errors lines = "") ∨
      ∃ invocation : Invocation, stage = .invoke invocation [] ∧ invocation.isPassable = true := by
  have silent : printed false .errors [.blank] = "" := by simp
  have passable : ∀ invocation ∈ hostBuilds ++ embeddedTargets.flatMap targetBuilds,
      invocation.isPassable = true := by decide
  rw [buildStages, List.mem_append, List.mem_append, List.mem_singleton, List.mem_flatMap] at mem
  rcases mem with (rfl | host) | ⟨target, listed, embedded⟩
  · exact Or.inl ⟨_, rfl, by simp [headingLines]⟩
  · rcases mem_group host with rfl | ⟨invocation, planned, rfl⟩
    · exact Or.inl ⟨_, rfl, silent⟩
    · exact Or.inr ⟨invocation, rfl, passable _ (List.mem_append_left _ planned)⟩
  · rcases mem_group embedded with rfl | ⟨invocation, planned, rfl⟩
    · exact Or.inl ⟨_, rfl, silent⟩
    · refine Or.inr ⟨invocation, rfl, passable _ (List.mem_append_right _ ?_)⟩
      exact List.mem_flatMap.mpr ⟨target, listed, planned⟩

theorem buildStages_callable : ∀ stage ∈ buildStages, stage.Callable := by
  intro stage mem
  rcases cases_of_mem_buildStages mem with ⟨lines, rfl, -⟩ | ⟨invocation, rfl, passable⟩
  · trivial
  · exact passable

theorem buildStages_unhinted : ∀ stage ∈ buildStages, stage.Unhinted := by
  intro stage mem
  rcases cases_of_mem_buildStages mem with ⟨lines, rfl, silent⟩ | ⟨invocation, rfl, -⟩
  · exact silent
  · rfl

end Plan

/-! ## How a check ends -/

/-- The messages of a task that failed. -/
def complaint? : Except Failure Unit → Option (List String)
  | .ok () => none
  | .error failure => some failure.messages

theorem complaint?_eq_none_iff {result : Except Failure Unit} :
    complaint? result = none ↔ result = .ok () := by
  cases result <;> simp [complaint?]

/-- How a task ended: the calls that it made, the messages if it failed, and what the error stream
received. -/
structure Ended (before : Workspace) (outcome : Except Failure Unit × Workspace)
    (commands : List (List String)) (messages : Option (List String)) (errors : String) : Prop where
  calls : outcome.2.calls = before.calls ++ commands
  messages : complaint? outcome.1 = messages
  errors : printed false .errors outcome.2.lines = printed false .errors before.lines ++ errors

/-- A task that is taken up where others left the workspace has their calls behind it as well. -/
theorem Ended.after {before : Workspace} {outcome : Except Failure Unit × Workspace}
    {commands earlier : List (List String)} {messages : Option (List String)} {errors : String}
    {lines : List Line} {left : List Reply}
    (ended : Ended (before.advance earlier lines left) outcome commands messages errors)
    (silent : printed false .errors lines = "") :
    Ended before outcome (earlier ++ commands) messages errors where
  calls := ended.calls.trans (List.append_assoc _ _ _)
  messages := ended.messages
  errors := by
    rw [ended.errors, Workspace.advance, printed_append, silent, String.append_empty]

namespace Plan

variable {workspace : Workspace} {replies : List Reply}

theorem lastStages_callable : ∀ stage ∈ lastStages, stage.Callable := by
  intro stage mem
  simp only [lastStages, List.mem_cons, List.not_mem_nil, or_false] at mem
  rcases mem with rfl | rfl | rfl
  · change Invocation.isPassable _ = true
    decide
  · change Invocation.isPassable _ = true
    decide
  · trivial

/-- The hint is printed where the formatting is not as it should be, after all that the call came
to, and nowhere else. -/
theorem printed_lastStages {lints format : Reply} (first : replies.headD {} = lints)
    (second : replies.tail.headD {} = format) :
    printed false .errors (lastStages.transcript replies) =
      if lints.succeeded then
        if format.succeeded then ""
        else failureText formatCall.title format ++ "     Run 'cargo fmt --all' to fix\n"
      else failureText lintCall.title lints := by
  simp only [lastStages, transcript, Stage.call?, Stage.lines, first, second, closing]
  cases linted : lints.succeeded with
  | false =>
      simp [Invocation.printed_lines, linted]
      rfl
  | true =>
      cases formatted : format.succeeded with
      | false =>
          simp [printed_append, Invocation.printed_lines, linted, formatted]
          rfl
      | true => simp [printed_append, Invocation.printed_lines, linted, formatted]

/-- After the headers a check lints, and if that succeeds it looks at the formatting. -/
theorem lastStages_ended (ready : workspace.cargo = some replies) {lints format : Reply}
    (first : replies.headD {} = lints) (second : replies.tail.headD {} = format) :
    Ended workspace (lastStages.run workspace)
      (if lints.succeeded then [lintCall.command, formatCall.command] else [lintCall.command])
      (if lints.succeeded then
        if format.succeeded then none else some [formatCall.title ++ " failed"]
      else some [lintCall.title ++ " failed"])
      (if lints.succeeded then
        if format.succeeded then ""
        else failureText formatCall.title format ++ "     Run 'cargo fmt --all' to fix\n"
      else failureText lintCall.title lints) := by
  have answers : answered (lastStages.filterMap Stage.call?) replies =
      [(lintCall, lints), (formatCall, format)] := by
    rw [← first, ← second]
    rfl
  rw [run_of_callable lastStages_callable ready, answers]
  have errors := printed_lastStages first second
  cases linted : lints.succeeded with
  | false =>
      simp only [linted, Bool.false_eq_true, if_false] at errors
      rw [verdict_cons_of_failed linted, passed_cons_of_failed linted]
      exact ⟨rfl, rfl, (printed_append _ _).trans (congrArg _ errors)⟩
  | true =>
      rw [verdict_cons_of_succeeded linted, passed_cons_of_succeeded linted]
      cases formatted : format.succeeded with
      | false =>
          simp only [linted, formatted, Bool.false_eq_true, if_true, if_false] at errors
          rw [verdict_cons_of_failed formatted, passed_cons_of_failed formatted]
          exact ⟨rfl, rfl, (printed_append _ _).trans (congrArg _ errors)⟩
      | true =>
          simp only [linted, formatted, if_true] at errors
          rw [verdict_cons_of_succeeded formatted, passed_cons_of_succeeded formatted]
          exact ⟨rfl, rfl, (printed_append _ _).trans (congrArg _ errors)⟩

/-- A check looks at the headers and does not write them. -/
theorem check_readOnly : ∀ stage ∈ check, ∀ only, stage = .headers only → only = true := by
  rintro stage mem only rfl
  rw [check_eq, List.mem_append, List.mem_cons] at mem
  rcases mem with early | same | late
  · rcases cases_of_mem_buildStages early with ⟨lines, other, -⟩ | ⟨invocation, other, -⟩
    · cases other
    · cases other
  · exact Stage.headers.inj same
  · simp [lastStages, closing] at late

/-- A check with a build that fails ends with that build. -/
theorem check_of_failed_build (ready : workspace.cargo = some replies) {call : PlannedCall}
    {reply : Reply} (failing : (answered plannedBuilds replies)[(passed
      (answered plannedBuilds replies)).length]? = some (call, reply)) :
    Ended workspace (check.run workspace)
      ((plannedBuilds.take ((passed (answered plannedBuilds replies)).length + 1)).map (·.command))
      (some [call.title ++ " failed"]) (failureText call.title reply) := by
  have errors := printed_transcript buildStages_unhinted replies
  rw [check_eq, run_append, run_of_callable buildStages_callable ready]
  simp only [buildStages_calls, verdict_of_getElem? failing] at errors ⊢
  rw [accountText_of_getElem? failing] at errors
  exact ⟨rfl, rfl, (printed_append _ _).trans (congrArg _ errors)⟩

/-- A check whose builds succeed goes on with the headers. -/
theorem check_of_built (ready : workspace.cargo = some replies)
    (built : ∀ answer ∈ answered plannedBuilds replies, answer.2.succeeded = true) :
    ∃ lines, printed false .errors lines = "" ∧
      check.run workspace = Plan.run (.headers true :: lastStages)
        (workspace.advance (plannedBuilds.map (·.command)) lines
          (replies.drop plannedBuilds.length)) := by
  refine ⟨buildStages.transcript replies, ?_, ?_⟩
  · rw [printed_transcript buildStages_unhinted, buildStages_calls, accountText_of_passed built]
  · have every : passed (answered plannedBuilds replies) = answered plannedBuilds replies :=
      List.takeWhile_eq_self_iff.mpr built
    rw [check_eq, run_append, run_of_callable buildStages_callable ready]
    simp only [buildStages_calls, verdict_eq_ok_iff.mpr built, every]
    rfl

/-- A check that finds some headers not in place ends with them. -/
theorem headers_ended_of_stale (workspace : Workspace) {stale : List Header}
    (found : Header.misplaced workspace.headers workspace.tree = stale) (some_stale : stale ≠ []) :
    Ended workspace (Plan.run (.headers true :: lastStages) workspace) []
      (some [toString stale.length ++ " header(s) out of date"])
      (String.join (stale.map fun header =>
        "  ✗ include/" ++ header.fileName ++ " is out of date\n") ++
        "     Run 'cargo xtask headers' to regenerate\n") := by
  have outcome := Header.syncHeaders_check workspace
  simp only [found, if_neg some_stale] at outcome
  rw [run, Stage.run, outcome]
  refine ⟨(List.append_nil _).symm, rfl, ?_⟩
  rw [Workspace.print, printed_append, Header.printed_checkLines some_stale]

/-- A check that finds every header in place ends as the last stages do. -/
theorem headers_ended_of_current (workspace : Workspace) (ready : workspace.cargo = some replies)
    (found : Header.misplaced workspace.headers workspace.tree = [])
    {commands : List (List String)} {messages : Option (List String)} {errors : String}
    (last : ∀ middle : Workspace, middle.cargo = some replies →
      Ended middle (lastStages.run middle) commands messages errors) :
    Ended workspace (Plan.run (.headers true :: lastStages) workspace) commands messages
      errors := by
  have outcome := Header.syncHeaders_check workspace
  simp only [found, if_true, Workspace.print_eq_advance ready] at outcome
  rw [run, Stage.run, outcome]
  have silent : printed false .errors (Header.checkLines []) = "" := by
    simp [Header.checkLines, headingLines, Header.currentLines]
  exact (last _ rfl).after silent

/-- A check whose builds succeed and some of whose headers are not in place ends with these. -/
theorem check_of_stale (ready : workspace.cargo = some replies)
    (built : ∀ answer ∈ answered plannedBuilds replies, answer.2.succeeded = true)
    {stale : List Header} (found : Header.misplaced workspace.headers workspace.tree = stale)
    (some_stale : stale ≠ []) :
    Ended workspace (check.run workspace) (plannedBuilds.map (·.command))
      (some [toString stale.length ++ " header(s) out of date"])
      (String.join (stale.map fun header =>
        "  ✗ include/" ++ header.fileName ++ " is out of date\n") ++
        "     Run 'cargo xtask headers' to regenerate\n") := by
  obtain ⟨lines, silent, ran⟩ := check_of_built ready built
  rw [ran, ← List.append_nil (plannedBuilds.map (·.command))]
  exact (headers_ended_of_stale (workspace.advance _ lines _) found some_stale).after silent

/-- A check whose builds succeed and whose headers are in place lints, and then looks at the
formatting. -/
theorem check_of_current (ready : workspace.cargo = some replies)
    (built : ∀ answer ∈ answered plannedBuilds replies, answer.2.succeeded = true)
    (found : Header.misplaced workspace.headers workspace.tree = []) {lints format : Reply}
    (first : replies.getD plannedBuilds.length {} = lints)
    (second : replies.getD (plannedBuilds.length + 1) {} = format) :
    Ended workspace (check.run workspace)
      (plannedBuilds.map (·.command) ++
        if lints.code = 0 then [lintCall.command, formatCall.command] else [lintCall.command])
      (if lints.code = 0 then
        if format.code = 0 then none else some [formatCall.title ++ " failed"]
      else some [lintCall.title ++ " failed"])
      (if lints.code = 0 then
        if format.code = 0 then ""
        else failureText formatCall.title format ++ "     Run 'cargo fmt --all' to fix\n"
      else failureText lintCall.title lints) := by
  obtain ⟨lines, silent, ran⟩ := check_of_built ready built
  rw [ran]
  refine (headers_ended_of_current (workspace.advance _ lines _) rfl found ?_).after silent
  intro middle left
  have next : (replies.drop plannedBuilds.length).headD {} = lints := by
    simpa [List.headD_eq_head?_getD, List.head?_drop] using first
  have last : (replies.drop plannedBuilds.length).tail.headD {} = format := by
    simpa [List.headD_eq_head?_getD, List.head?_drop] using second
  simpa [Reply.succeeded] using lastStages_ended left next last

theorem exists_failing {answers : List (PlannedCall × Reply)}
    (failed : ¬ ∀ answer ∈ answers, answer.2.succeeded = true) :
    ∃ call reply, answers[(passed answers).length]? = some (call, reply) := by
  rw [← find?_failed]
  cases found : answers.find? (!·.2.succeeded) with
  | none => exact absurd (by simpa [List.find?_eq_none] using found) failed
  | some failing => exact ⟨failing.1, failing.2, rfl⟩

/-- A check stops at its first failing stage, is complete without one, and only reads. Its builds
are made in order, up to and with the first that fails. If none fails, headers that are not in place
end it, with their number. If they are all in place it lints, and if that succeeds it looks at the
formatting. It succeeds exactly if all of this does. The error stream receives what the failing
stage came to and nothing else, so the hint is printed exactly where the formatting is what failed.
No file is changed. -/
theorem check_stops_at_first_failure (replies : List Reply) (workspace : Workspace)
    (cargo : workspace.cargo = some replies) :
    let outcome := check.run workspace
    let builds := answered plannedBuilds replies
    let passed := builds.takeWhile fun answer => answer.2.code = 0
    let stale := Header.all.filter fun header =>
      ¬ Header.InPlace workspace.headers workspace.tree header
    let lints := replies.getD plannedBuilds.length {}
    let format := replies.getD (plannedBuilds.length + 1) {}
    let built := plannedBuilds.map (·.command)
    outcome.2.tree = workspace.tree ∧
    (outcome.1 = .ok () ↔
      (∀ answer ∈ builds, answer.2.code = 0) ∧ stale = [] ∧ lints.code = 0 ∧ format.code = 0) ∧
    (∀ call reply, builds[passed.length]? = some (call, reply) →
      Ended workspace outcome ((plannedBuilds.take (passed.length + 1)).map (·.command))
        (some [call.title ++ " failed"]) (failureText call.title reply)) ∧
    ((∀ answer ∈ builds, answer.2.code = 0) →
      (stale ≠ [] →
        Ended workspace outcome built (some [toString stale.length ++ " header(s) out of date"])
          (String.join (stale.map fun header =>
            "  ✗ include/" ++ header.fileName ++ " is out of date\n") ++
            "     Run 'cargo xtask headers' to regenerate\n")) ∧
      (stale = [] → lints.code ≠ 0 →
        Ended workspace outcome (built ++ [lintCall.command])
          (some [lintCall.title ++ " failed"]) (failureText lintCall.title lints)) ∧
      (stale = [] → lints.code = 0 → format.code ≠ 0 →
        Ended workspace outcome (built ++ [lintCall.command, formatCall.command])
          (some [formatCall.title ++ " failed"])
          (failureText formatCall.title format ++ "     Run 'cargo fmt --all' to fix\n")) ∧
      (stale = [] → lints.code = 0 → format.code = 0 →
        Ended workspace outcome (built ++ [lintCall.command, formatCall.command]) none "")) := by
  intro outcome builds passed stale lints format built
  have failing (call : PlannedCall) (reply : Reply)
      (h : builds[passed.length]? = some (call, reply)) :
      Ended workspace outcome ((plannedBuilds.take (passed.length + 1)).map (·.command))
        (some [call.title ++ " failed"]) (failureText call.title reply) :=
    check_of_failed_build cargo h
  have succeeded (all_built : ∀ answer ∈ builds, answer.2.code = 0) :
      ∀ answer ∈ builds, answer.2.succeeded = true := by
    simpa [Reply.succeeded] using all_built
  have outdated (all_built : ∀ answer ∈ builds, answer.2.code = 0) :=
    check_of_stale cargo (succeeded all_built) (rfl : _ = stale)
  have current (all_built : ∀ answer ∈ builds, answer.2.code = 0) (none_stale : stale = []) :=
    check_of_current cargo (succeeded all_built) none_stale (rfl : _ = lints) (rfl : _ = format)
  have linting (all_built : ∀ answer ∈ builds, answer.2.code = 0) (none_stale : stale = [])
      (linted : lints.code ≠ 0) :
      Ended workspace outcome (built ++ [lintCall.command])
        (some [lintCall.title ++ " failed"]) (failureText lintCall.title lints) := by
    simpa [linted] using current all_built none_stale
  have formatting (all_built : ∀ answer ∈ builds, answer.2.code = 0) (none_stale : stale = [])
      (linted : lints.code = 0) (formatted : format.code ≠ 0) :
      Ended workspace outcome (built ++ [lintCall.command, formatCall.command])
        (some [formatCall.title ++ " failed"])
        (failureText formatCall.title format ++ "     Run 'cargo fmt --all' to fix\n") := by
    simpa [linted, formatted] using current all_built none_stale
  have completed (all_built : ∀ answer ∈ builds, answer.2.code = 0) (none_stale : stale = [])
      (linted : lints.code = 0) (formatted : format.code = 0) :
      Ended workspace outcome (built ++ [lintCall.command, formatCall.command]) none "" := by
    simpa [linted, formatted] using current all_built none_stale
  refine ⟨run_tree check_readOnly workspace, ?_, failing, fun all_built =>
    ⟨outdated all_built, linting all_built, formatting all_built, completed all_built⟩⟩
  constructor
  · intro ok
    have no_messages {commands : List (List String)} {messages : List String} {errors : String}
        (ended : Ended workspace outcome commands (some messages) errors) : False := by
      simpa [complaint?_eq_none_iff.mpr ok] using ended.messages
    have all_built : ∀ answer ∈ builds, answer.2.code = 0 := by
      by_contra some_failed
      obtain ⟨call, reply, h⟩ : ∃ call reply, builds[passed.length]? = some (call, reply) :=
        exists_failing (by simpa [Reply.succeeded] using some_failed)
      exact no_messages (failing call reply h)
    have none_stale : stale = [] := by
      by_contra some_stale
      exact no_messages (outdated all_built some_stale)
    have linted : lints.code = 0 := by
      by_contra failed
      exact no_messages (linting all_built none_stale failed)
    refine ⟨all_built, none_stale, linted, ?_⟩
    by_contra failed
    exact no_messages (formatting all_built none_stale linted failed)
  · rintro ⟨all_built, none_stale, linted, formatted⟩
    exact complaint?_eq_none_iff.mp (completed all_built none_stale linted formatted).messages

/-- A tree with every header in place. -/
def upToDate : FileTree :=
  (((FileTree.nothing.add [] .dir).add ["include"] .dir).add ["include", "decoder.h"]
    (.file Header.decoder.bytes)).add ["include", "custom_support.h"]
      (.file Header.customSupport.bytes)

theorem upToDate_inPlace (header : Header) :
    Header.InPlace ⟨["include"], "include"⟩ upToDate header := by
  have decoder (path : Path) :
      (((FileTree.nothing.add [] .dir).add ["include"] .dir).add ["include", "decoder.h"]
        (.file Header.decoder.bytes)).entry path =
      if path = ["include", "decoder.h"] then some (.file Header.decoder.bytes)
      else if path = ["include"] then some .dir
      else if path = [] then some .dir
      else none := by
    rw [FileTree.entry_add, Header.include_entry]
    · simp [Header.include_entry]
    · simp [FileTree.Housed, Header.include_entry]
  apply Header.isCurrent_iff_inPlace.mp
  rw [Header.isCurrent_iff Header.clear_unreadable.plain]
  refine ⟨Header.clear_unreadable.legal_file header, ?_⟩
  rw [upToDate, FileTree.entry_add]
  · cases header <;> simp [decoder, Header.place, Header.fileName]
  · simp [decoder]
  · simp [FileTree.Housed, decoder]

theorem check_gives_hint :
    let reply : Reply := { stdout := Text.Utf8.encode "Diff in lib.rs", code := 1 }
    let replies : List Reply := List.replicate 16 ⟨[], [], 0⟩ ++ [reply]
    let workspace : Workspace := ⟨some replies, upToDate, ⟨["include"], "include"⟩, [], []⟩
    (check.run workspace).2.tree = workspace.tree ∧
      Ended workspace (check.run workspace)
        (plannedBuilds.map (·.command) ++ [lintCall.command, formatCall.command])
        (some ["Checking formatting failed"])
        ("  ✗ Checking formatting failed\n\nDiff in lib.rs\n\n" ++
          "     Run 'cargo fmt --all' to fix\n") := by
  intro reply replies workspace
  obtain ⟨unchanged, -, -, rest⟩ := check_stops_at_first_failure replies workspace rfl
  have built : ∀ answer ∈ answered plannedBuilds replies, answer.2.code = 0 := by decide
  have in_place : ∀ header, Header.InPlace workspace.headers workspace.tree header :=
    upToDate_inPlace
  have none_stale : Header.all.filter (fun header =>
      ¬ Header.InPlace workspace.headers workspace.tree header) = [] := by
    simp [in_place]
  have last : replies.getD (plannedBuilds.length + 1) {} = reply := rfl
  have ended := (rest built).2.2.1 none_stale rfl (by rw [last]; decide)
  have diff : Text.Utf8.lossyString reply.stdout = "Diff in lib.rs" := by decide
  have silence : Text.Utf8.lossyString reply.stderr = "" := by decide
  have account : failureText formatCall.title reply =
      "  ✗ Checking formatting failed\n\nDiff in lib.rs\n\n" := by
    rw [failureText, diff, silence]
    rfl
  have named : formatCall.title ++ " failed" = "Checking formatting failed" := rfl
  rw [last, account, named] at ended
  exact ⟨unchanged, ended⟩

end Plan

end StaticOpus
