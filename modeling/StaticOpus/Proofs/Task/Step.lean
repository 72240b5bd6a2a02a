import StaticOpus.Proofs.Task.Checks

/-!
# The account of one call

A call to cargo is told in full: a line before it, and after it a line if it succeeded, or else that
it failed and both of its outputs. A call that cannot be made is not made, and fails for the cause
that the system gives.

## Implementation notes

A zero character in an argument is found before the system looks for a program, so that it is the
cause even if there is none.
-/

namespace StaticOpus

/-- Whether an argument, or the list of features, holds the zero character. -/
def HoldsZero (args : List String) (features : Option String) : Prop :=
  (∃ argument ∈ args, '\x00' ∈ argument.toList) ∨ ∃ list ∈ features, '\x00' ∈ list.toList

namespace Invocation

variable {label : String} {args : List String} {features : Option String}

theorem isPassable_iff :
    (⟨label, args, features⟩ : Invocation).isPassable = true ↔ ¬ HoldsZero args features := by
  have free (arguments : List String) :
      (arguments.all fun argument => argument.toList.all (· ≠ '\x00')) = true ↔
        ∀ argument ∈ arguments, '\x00' ∉ argument.toList := by
    simp only [List.all_eq_true, decide_eq_true_iff, List.forall_mem_ne']
  have sound : ¬ HoldsZero args features ↔
      (∀ argument ∈ args, '\x00' ∉ argument.toList) ∧
        ∀ list ∈ features, '\x00' ∉ list.toList := by
    simp [HoldsZero]
  rw [isPassable, free, sound]
  cases features with
  | none => simp [command]
  | some list =>
      by_cases unnamed : list = ""
      · simp [command, unnamed, List.forall_mem_append, -List.mem_append]
      · simp [command, unnamed, List.forall_mem_append, -List.mem_append]

/-- What the output receives of a call: that it has begun, and that it succeeded if it did. -/
theorem printed_output_lines (invocation : Invocation) (reply : Reply) :
    printed false .output (invocation.lines reply) =
      "  " ++ invocation.title ++ "...\n" ++
        if reply.succeeded then "  ✓ " ++ invocation.title ++ " passed in #s\n" else "" := by
  rw [lines, begunLine, printed_output_output_cons]
  cases reply.succeeded with
  | true => simp [passedLine, elapsedMark, String.append_assoc]
  | false => simp [failedLines, String.append_assoc]

end Invocation

namespace Workspace

/-- What has been called and printed on the way from one workspace to another. -/
structure Told (before after : Workspace) (commands : List (List String))
    (output errors : String) : Prop where
  calls : after.calls = before.calls ++ commands
  output : printed false .output after.lines = printed false .output before.lines ++ output
  errors : printed false .errors after.lines = printed false .errors before.lines ++ errors

variable (workspace : Workspace) (invocation : Invocation)

/-- What is told of a call that is made. -/
theorem told_of_made (reply : Reply) (left : List Reply) :
    workspace.Told (workspace.advance [invocation.command] (invocation.lines reply) left)
      [invocation.command]
      ("  " ++ invocation.title ++ "...\n" ++
        if reply.succeeded then "  ✓ " ++ invocation.title ++ " passed in #s\n" else "")
      (if reply.succeeded then "" else failureText invocation.title reply) where
  calls := rfl
  output := by
    rw [← invocation.printed_output_lines]
    exact printed_append _ _
  errors := by
    rw [← invocation.printed_lines]
    exact printed_append _ _

/-- A call that cannot be made is told by the line before it alone. -/
theorem told_of_begun :
    workspace.Told (workspace.print [invocation.begunLine]) []
      ("  " ++ invocation.title ++ "...\n") "" where
  calls := (List.append_nil _).symm
  output := by
    simp [print, printed_append, Invocation.begunLine, String.append_assoc]
  errors := by
    simp [print, printed_append, Invocation.begunLine]

variable {workspace invocation}

/-- Why a call cannot be made. -/
theorem invoke_of_impassable (impassable : ¬ invocation.isPassable = true) :
    workspace.invoke invocation =
      (.error (.spawn invocation.args .nulInArgument), workspace.print [invocation.begunLine]) := by
  simp [invoke, Cargo.call, impassable]

theorem invoke_of_missing (passable : invocation.isPassable = true)
    (missing : workspace.cargo = none) :
    workspace.invoke invocation =
      (.error (.spawn invocation.args .noProgram), workspace.print [invocation.begunLine]) := by
  simp [invoke, Cargo.call, passable, print, missing]

/-- A call to cargo is reported faithfully. If it can be made, it is made once, with the given
arguments and what the features add to them, and takes the next reply. A reply that succeeded is the
result, and a line says so; a reply that failed is an error, and both of its outputs follow the line
that says so. If it cannot be made, no call is made, and the error has the system's cause under
it. -/
theorem call_reported (label : String) (args : List String) (features : Option String)
    (workspace : Workspace) :
    let title := match features with
      | none => label
      | some list => label ++ " [" ++ (if list = "" then "default" else list) ++ "]"
    let command := match features with
      | none => args
      | some list =>
        args ++ ["-p", "opus-shim"] ++ if list = "" then [] else ["--features", list]
    let begun := "  " ++ title ++ "...\n"
    let outcome := workspace.invoke ⟨label, args, features⟩
    (∀ replies, workspace.cargo = some replies → ¬ HoldsZero args features →
      let reply := replies.headD {}
      outcome.2.cargo = some replies.tail ∧
      (reply.code = 0 → outcome.1 = .ok reply ∧
        workspace.Told outcome.2 [command] (begun ++ "  ✓ " ++ title ++ " passed in #s\n") "") ∧
      (reply.code ≠ 0 →
        (∃ failure, outcome.1 = .error failure ∧ failure.messages = [title ++ " failed"]) ∧
        workspace.Told outcome.2 [command] begun
          ("  ✗ " ++ title ++ " failed\n" ++ "\n" ++ Text.Utf8.lossyString reply.stdout ++ "\n" ++
            Text.Utf8.lossyString reply.stderr ++ "\n"))) ∧
    (workspace.cargo = none ∨ HoldsZero args features →
      ∃ failure cause, outcome.1 = .error failure ∧
        failure.messages = ["Failed to run cargo " ++ String.intercalate " " args, cause] ∧
        (HoldsZero args features → cause = "nul byte found in provided data") ∧
        (¬ HoldsZero args features → cause = "No such file or directory (os error 2)") ∧
        workspace.Told outcome.2 [] begun "") := by
  intro title command begun outcome
  let invocation : Invocation := ⟨label, args, features⟩
  have title_eq : invocation.title = title := by cases features <;> rfl
  have command_eq : invocation.command = command := by cases features <;> rfl
  constructor
  · intro replies ready sound reply
    have made : workspace.invoke invocation = _ :=
      invoke_eq (Invocation.isPassable_iff.mpr sound) ready rfl
    have told := told_of_made workspace invocation reply replies.tail
    rw [title_eq, command_eq] at told
    rw [show outcome = _ from made]
    refine ⟨rfl, ?_, ?_⟩
    · intro zero
      have succeeded : reply.succeeded = true := by simp [Reply.succeeded, zero]
      rw [if_pos succeeded, if_pos succeeded, ← String.append_assoc, ← String.append_assoc] at told
      exact ⟨if_pos succeeded, told⟩
    · intro nonzero
      have failed : ¬ reply.succeeded = true := by simp [Reply.succeeded, nonzero]
      rw [if_neg failed, if_neg failed, String.append_empty] at told
      refine ⟨⟨.step invocation.title, if_neg failed, ?_⟩, told⟩
      rw [Failure.messages, title_eq]
  · intro unmade
    have told := told_of_begun workspace invocation
    rw [title_eq] at told
    by_cases zero : HoldsZero args features
    · have impassable : ¬ invocation.isPassable = true :=
        fun passable => Invocation.isPassable_iff.mp passable zero
      have refused : outcome = _ := invoke_of_impassable impassable
      rw [refused]
      exact ⟨_, _, rfl, rfl, fun _ => rfl, fun sound => absurd zero sound, told⟩
    · have passable : invocation.isPassable = true := Invocation.isPassable_iff.mpr zero
      have refused : outcome = _ := invoke_of_missing passable (unmade.resolve_right zero)
      rw [refused]
      exact ⟨_, _, rfl, rfl, fun holds => absurd holds zero, fun _ => rfl, told⟩

theorem call_reported_of_failure :
    let workspace : Workspace :=
      ⟨some [{ stdout := [0xFF], stderr := [0x6F], code := 101 }], .nothing, ⟨[], "include"⟩, [], []⟩
    let outcome := workspace.invoke ⟨"Checking", ["check"], some ""⟩
    outcome.2.calls = [["check", "-p", "opus-shim"]] ∧
      (∃ failure, outcome.1 = .error failure ∧
        failure.messages = ["Checking [default] failed"]) ∧
      printed false .errors outcome.2.lines =
        "  ✗ Checking [default] failed\n\n\uFFFD\no\n" := by
  intro workspace outcome
  obtain ⟨made, -⟩ := call_reported "Checking" ["check"] (some "") workspace
  obtain ⟨-, -, failed⟩ := made _ rfl (by simp [HoldsZero])
  obtain ⟨messages, told⟩ := failed (by decide)
  have stdout : Text.Utf8.lossyString [0xFF] = "\uFFFD" := by decide
  have stderr : Text.Utf8.lossyString [0x6F] = "o" := by decide
  refine ⟨told.calls, messages, told.errors.trans ?_⟩
  change printed false .errors [] ++ ("  ✗ Checking [default] failed\n" ++ "\n" ++
    Text.Utf8.lossyString [0xFF] ++ "\n" ++ Text.Utf8.lossyString [0x6F] ++ "\n") = _
  rw [stdout, stderr]
  decide

end Workspace

end StaticOpus
