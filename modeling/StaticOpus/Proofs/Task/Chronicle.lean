import StaticOpus.CommandLine
import StaticOpus.Proofs.Task.Step
import StaticOpus.Proofs.Terminal.Display
import StaticOpus.Proofs.Text.Plain
import StaticOpus.Proofs.Text.Wording

/-!
# What a run calls and prints

A chronicle of a run says which calls it made and which lines it printed, and what an onlooker may
rely on: no line holds an escape character, a run that succeeded left the error stream alone, and
one that a failed call ended told of that call first. Every command has one, and so has every single
call.

## Implementation notes

A sequence that a label, a feature list or a reply brings along could not be told from one that
shows a style, so these are taken to hold no escape character.
-/

namespace StaticOpus

open Terminal

/-! ## Literal texts -/

section Literal

theorem isLiteral_toString (number : Nat) : IsLiteral (toString number) := by
  intro mem
  rw [← Text.toString_natCast] at mem
  cases Text.isNumeral_of_mem_toString mem

theorem isLiteral_lossyString {bytes : List UInt8} (literal : 0x1B ∉ bytes) :
    IsLiteral (Text.Utf8.lossyString bytes) := by
  intro mem
  rw [Text.Utf8.lossyString, String.toList_ofList] at mem
  exact literal (Text.Utf8.mem_of_plain_mem_lossy (by decide) (by decide) mem)

theorem isLiteral_testSummary (output : List UInt8) : IsLiteral (testSummary output) := by
  rw [testSummary, Tally.summary]
  split
  · decide
  · simp only [isLiteral_append, isLiteral_toString, true_and]
    decide

end Literal

/-- Whether the outputs of a reply hold no escape character. -/
def Reply.IsLiteral (reply : Reply) : Prop := 0x1B ∉ reply.stdout ∧ 0x1B ∉ reply.stderr

/-- Whether no reply still to come holds an escape character. -/
def Cargo.IsLiteral (cargo : Cargo) : Prop :=
  ∀ replies ∈ cargo, ∀ reply ∈ replies, Reply.IsLiteral reply

/-- Whether neither the label nor the features of a call hold an escape character. -/
def Invocation.IsLiteral (invocation : Invocation) : Prop :=
  Terminal.IsLiteral invocation.label ∧
    ∀ features ∈ invocation.features, Terminal.IsLiteral features

instance (invocation : Invocation) : Decidable invocation.IsLiteral :=
  inferInstanceAs (Decidable (_ ∧ ∀ features ∈ invocation.features, Terminal.IsLiteral features))

namespace Invocation

variable {invocation : Invocation}

theorem IsLiteral.title (literal : invocation.IsLiteral) :
    Terminal.IsLiteral invocation.title := by
  obtain ⟨label, features⟩ := literal
  rw [Invocation.title]
  split
  · exact label
  · next list has =>
      have named : Terminal.IsLiteral (describeFeatures list) := by
        rw [describeFeatures]
        split
        · decide
        · exact features list has
      simp only [isLiteral_append, label, named, true_and, and_true]
      decide

theorem IsLiteral.begunLine (literal : invocation.IsLiteral) :
    invocation.begunLine.IsLiteral := by
  rw [Invocation.begunLine, Line.isLiteral_output]
  simp only [isLiteral_append, literal.title]
  decide

/-- The lines around a call whose reply is literal are so too. -/
theorem IsLiteral.lines (literal : invocation.IsLiteral) {reply : Reply}
    (plain : reply.IsLiteral) : ∀ line ∈ invocation.lines reply, line.IsLiteral := by
  have title := literal.title
  have passed : invocation.passedLine.IsLiteral := by
    rw [passedLine, Line.isLiteral_output]
    simp only [isLiteral_append, title]
    decide
  have failed : ∀ line ∈ invocation.failedLines reply, line.IsLiteral := by
    simp only [failedLines, List.forall_mem_cons, Line.isLiteral_errors, isLiteral_append, title,
      isLiteral_lossyString plain.1, isLiteral_lossyString plain.2, true_and]
    decide
  rw [Invocation.lines, List.forall_mem_cons]
  refine ⟨literal.begunLine, ?_⟩
  cases reply.succeeded with
  | true => exact List.forall_mem_singleton.mpr passed
  | false => exact failed

end Invocation

theorem summaryLine_isLiteral (reply : Reply) : (summaryLine reply).IsLiteral := by
  have blanks : Terminal.IsLiteral "    " := by decide
  simp [summaryLine, Line.IsLiteral, blanks, isLiteral_testSummary]

namespace Header

theorem fileName_isLiteral (header : Header) : Terminal.IsLiteral header.fileName := by
  cases header <;> decide

theorem wroteLines_isLiteral (written : List Header) :
    ∀ line ∈ wroteLines written, line.IsLiteral := by
  intro line mem
  rw [wroteLines, List.mem_append, List.mem_map] at mem
  rcases mem with ⟨header, -, rfl⟩ | last
  · rw [Line.isLiteral_output, isLiteral_append]
    exact ⟨by decide, header.fileName_isLiteral⟩
  · revert line
    decide

theorem staleLines_isLiteral (stale : List Header) :
    ∀ line ∈ staleLines stale, line.IsLiteral := by
  intro line mem
  rw [staleLines, List.mem_append, List.mem_map] at mem
  rcases mem with ⟨header, -, rfl⟩ | last
  · rw [Line.isLiteral_errors]
    simp only [isLiteral_append, header.fileName_isLiteral]
    decide
  · revert line
    decide

end Header

/-! ## What a run does from a workspace on -/

/-- Those of some lines that the error stream receives. -/
def errorLines (lines : List Line) : List Line := lines.filter (·.channel = .errors)

theorem errorLines_append (first later : List Line) :
    errorLines (first ++ later) = errorLines first ++ errorLines later :=
  List.filter_append ..

theorem errorLines_lines (invocation : Invocation) (reply : Reply) :
    errorLines (invocation.lines reply) =
      if reply.succeeded then [] else invocation.failedLines reply := by
  cases succeeded : reply.succeeded with
  | true =>
      simp [errorLines, Invocation.lines, succeeded, Invocation.begunLine, Invocation.passedLine,
        Line.output]
  | false =>
      simp [errorLines, Invocation.lines, succeeded, Invocation.begunLine, Invocation.failedLines,
        Line.output, Line.errors]

/-- Of `count` calls to cargo the last one failed, and some lines of the error stream tell of it
first. -/
def TellsFailure (cargo : Cargo) (count : Nat) (title : String) (lines : List Line) : Prop :=
  ∃ replies earlier reply, cargo = some replies ∧ count = earlier + 1 ∧
    replies.getD earlier {} = reply ∧ reply.code ≠ 0 ∧
    ∃ invocation : Invocation, invocation.title = title ∧
      ∃ hint, lines = invocation.failedLines reply ++ hint

namespace TellsFailure

variable {cargo : Cargo} {count : Nat} {title : String} {lines : List Line}

/-- What more is printed does not matter. -/
theorem followed (h : TellsFailure cargo count title lines) (more : List Line) :
    TellsFailure cargo count title (lines ++ more) := by
  obtain ⟨replies, earlier, reply, ready, counted, last, wrong, invocation, titled, hint, rfl⟩ := h
  exact ⟨replies, earlier, reply, ready, counted, last, wrong, invocation, titled, hint ++ more,
    List.append_assoc ..⟩

/-- Calls that were made before count as well. -/
theorem preceded {made : Nat} (h : TellsFailure (cargo.map (·.drop made)) count title lines) :
    TellsFailure cargo (made + count) title lines := by
  obtain ⟨left, earlier, reply, ready, rfl, last, wrong, told⟩ := h
  obtain ⟨replies, start, rfl⟩ := Option.map_eq_some_iff.mp ready
  refine ⟨replies, made + earlier, reply, start, (Nat.add_assoc ..).symm, ?_, wrong, told⟩
  rw [← last, List.getD_eq_getElem?_getD, List.getD_eq_getElem?_getD, List.getElem?_drop]

/-- A single call that failed. -/
theorem of_failed {replies : List Reply} (succeeded : (replies.headD {}).succeeded = false)
    (invocation : Invocation) :
    TellsFailure (some replies) 1 invocation.title
      (invocation.failedLines (replies.headD {})) := by
  have first : replies.getD 0 {} = replies.headD {} := by cases replies <;> rfl
  have wrong : (replies.headD {}).code ≠ 0 := by simpa [Reply.succeeded] using succeeded
  exact ⟨replies, 0, _, rfl, rfl, first, wrong, invocation, rfl, [], (List.append_nil _).symm⟩

end TellsFailure

theorem Workspace.print_nil (workspace : Workspace) : workspace.print [] = workspace := by
  simp [print]

/-- What a run did from a workspace on: the calls that it made, one reply for each, and the lines
that it printed. All lines are literal. The error stream received none if the run succeeded, and if
a call failed it received first what tells of that. -/
structure Chronicle {α : Type} (before : Workspace) (outcome : Except Failure α × Workspace)
    (made : List (List String)) (lines : List Line) : Prop where
  calls_eq : outcome.2.calls = before.calls ++ made
  lines_eq : outcome.2.lines = before.lines ++ lines
  cargo_eq : outcome.2.cargo = before.cargo.map (·.drop made.length)
  literal : ∀ line ∈ lines, line.IsLiteral
  silent : ∀ value, outcome.1 = .ok value → errorLines lines = []
  told : ∀ title, outcome.1 = .error (.step title) →
    TellsFailure before.cargo made.length title (errorLines lines)

namespace Chronicle

variable {α β : Type} {before middle : Workspace} {made more : List (List String)}
  {lines later : List Line}

/-- A run that called nothing and only printed. -/
theorem uncalled {result : Except Failure α} (literal : ∀ line ∈ lines, line.IsLiteral)
    (silent : ∀ value, result = .ok value → errorLines lines = [])
    (other : ∀ title, result ≠ .error (.step title)) :
    Chronicle before (result, before.print lines) [] lines where
  calls_eq := (List.append_nil _).symm
  lines_eq := rfl
  cargo_eq := by
    rw [Workspace.print]
    cases before.cargo <;> rfl
  literal := literal
  silent := silent
  told := fun title failed => absurd failed (other title)

theorem print (literal : ∀ line ∈ lines, line.IsLiteral) (silent : errorLines lines = []) :
    Chronicle before (Except.ok (), before.print lines) [] lines :=
  .uncalled literal (fun _ _ => silent) (by simp)

theorem refl : Chronicle before (Except.ok (), before) [] [] := by
  have printed : Chronicle before (Except.ok (), before.print []) [] [] :=
    .print (List.forall_mem_nil _) rfl
  rwa [Workspace.print_nil] at printed

/-- A run that fails for another reason than a failed call. -/
theorem stopped {failure : Failure} (other : ∀ title, failure ≠ .step title)
    (literal : ∀ line ∈ lines, line.IsLiteral) :
    Chronicle before ((Except.error failure : Except Failure α), before.print lines) [] lines :=
  .uncalled literal (by simp) (by simpa using other)

theorem stopped_silently {failure : Failure} (other : ∀ title, failure ≠ .step title) :
    Chronicle before ((Except.error failure : Except Failure α), before) [] [] := by
  have told : Chronicle before ((Except.error failure : Except Failure α), before.print []) [] [] :=
    .stopped other (List.forall_mem_nil _)
  rwa [Workspace.print_nil] at told

/-- A run that is taken up where another has succeeded. -/
theorem append {value : α} {outcome : Except Failure β × Workspace}
    (first : Chronicle before (Except.ok value, middle) made lines)
    (rest : Chronicle middle outcome more later) :
    Chronicle before outcome (made ++ more) (lines ++ later) where
  calls_eq := by rw [rest.calls_eq, first.calls_eq, List.append_assoc]
  lines_eq := by rw [rest.lines_eq, first.lines_eq, List.append_assoc]
  cargo_eq := by
    rw [rest.cargo_eq, first.cargo_eq, Option.map_map, List.length_append]
    congr 1
    funext replies
    exact List.drop_drop
  literal := by
    rw [List.forall_mem_append]
    exact ⟨first.literal, rest.literal⟩
  silent := by
    intro value' succeeded
    rw [errorLines_append, first.silent value rfl, rest.silent value' succeeded, List.append_nil]
  told := by
    intro title failed
    have told := rest.told title failed
    rw [show middle.cargo = _ from first.cargo_eq] at told
    rw [errorLines_append, first.silent value rfl, List.nil_append, List.length_append]
    exact told.preceded

/-- A failure is the same whatever a success would have given. -/
theorem retype {failure : Failure} {after : Workspace}
    (h : Chronicle before ((Except.error failure : Except Failure α), after) made lines) :
    Chronicle before ((Except.error failure : Except Failure β), after) made lines :=
  ⟨h.calls_eq, h.lines_eq, h.cargo_eq, h.literal, nofun,
    fun title failed => h.told title (congrArg _ (Except.error.inj failed))⟩

/-- A failed run that prints a hint at its end. -/
theorem hinted {failure : Failure} {after : Workspace} {hint : List Line}
    (failed : Chronicle before ((Except.error failure : Except Failure α), after) made lines)
    (literal : ∀ line ∈ hint, line.IsLiteral) :
    Chronicle before ((Except.error failure : Except Failure α), after.print hint) made
      (lines ++ hint) where
  calls_eq := failed.calls_eq
  lines_eq := by
    rw [Workspace.print, failed.lines_eq, List.append_assoc]
  cargo_eq := failed.cargo_eq
  literal := by
    rw [List.forall_mem_append]
    exact ⟨failed.literal, literal⟩
  silent := nofun
  told := by
    intro title step
    rw [errorLines_append]
    exact (failed.told title step).followed _

/-- What happens to the files is not told. -/
theorem withTree {result : Except Failure α} {after : Workspace}
    (h : Chronicle before (result, after) made lines) (tree : FileTree) :
    Chronicle before (result, { after with tree := tree }) made lines :=
  ⟨h.calls_eq, h.lines_eq, h.cargo_eq, h.literal, h.silent, h.told⟩

/-- A call that was made and got a reply. -/
theorem called {invocation : Invocation} (literal : invocation.IsLiteral) {replies : List Reply}
    (ready : before.cargo = some replies) {reply : Reply} (next : replies.headD {} = reply)
    (plain : reply.IsLiteral) :
    Chronicle before
      (if reply.succeeded then .ok reply else .error (.step invocation.title),
        before.advance [invocation.command] (invocation.lines reply) replies.tail)
      [invocation.command] (invocation.lines reply) where
  calls_eq := rfl
  lines_eq := rfl
  cargo_eq := by
    rw [ready]
    simp [Workspace.advance]
  literal := literal.lines plain
  silent := by
    intro value
    rw [errorLines_lines]
    cases reply.succeeded with
    | true => exact fun _ => rfl
    | false => rintro ⟨⟩
  told := by
    intro title
    rw [errorLines_lines]
    cases succeeded : reply.succeeded with
    | true => rintro ⟨⟩
    | false =>
        rintro ⟨⟩
        subst next
        rw [ready]
        exact .of_failed succeeded invocation

end Chronicle

/-! ## Stages and plans -/

section Runs

variable {before : Workspace}

theorem Cargo.IsLiteral.headD {replies : List Reply}
    (literal : Cargo.IsLiteral (some replies)) : (replies.headD {}).IsLiteral := by
  cases replies with
  | nil => exact ⟨List.not_mem_nil, List.not_mem_nil⟩
  | cons first rest => exact literal _ rfl first List.mem_cons_self

theorem Cargo.IsLiteral.drop {cargo : Cargo} (literal : cargo.IsLiteral) (count : Nat) :
    Cargo.IsLiteral (cargo.map (·.drop count)) := by
  intro left ready reply mem
  obtain ⟨replies, start, rfl⟩ := Option.map_eq_some_iff.mp ready
  exact literal replies start reply (List.mem_of_mem_drop mem)

theorem Workspace.exists_chronicle {invocation : Invocation} (literal : invocation.IsLiteral)
    (plain : before.cargo.IsLiteral) :
    ∃ made lines, Chronicle before (before.invoke invocation) made lines := by
  by_cases passable : invocation.isPassable = true
  · cases ready : before.cargo with
    | none =>
        rw [invoke_of_missing passable ready]
        exact ⟨_, _, .stopped (by simp) (List.forall_mem_singleton.mpr literal.begunLine)⟩
    | some replies =>
        rw [ready] at plain
        rw [invoke_eq passable ready rfl]
        exact ⟨_, _, .called literal ready rfl plain.headD⟩
  · rw [invoke_of_impassable passable]
    exact ⟨_, _, .stopped (by simp) (List.forall_mem_singleton.mpr literal.begunLine)⟩

theorem errorLines_wroteLines (written : List Header) :
    errorLines (Header.wroteLines written) = [] := by
  simp [errorLines, Header.wroteLines, Line.blank, Line.output]

theorem Workspace.exists_chronicle_reportSync (check : Bool) (before : Workspace)
    (result : Except SyncFault (List Header)) :
    ∃ lines, Chronicle before (reportSync check before result) [] lines := by
  match result with
  | .error fault => exact ⟨[], .stopped_silently (by simp)⟩
  | .ok [] => exact ⟨_, .print (by decide) (by decide)⟩
  | .ok (first :: rest) =>
      rw [reportSync]
      cases check with
      | true => exact ⟨_, .stopped (by simp) (Header.staleLines_isLiteral _)⟩
      | false => exact ⟨_, .print (Header.wroteLines_isLiteral _) (errorLines_wroteLines _)⟩

/-- A sync calls nothing, and writes to the error stream only if it fails. -/
theorem Workspace.exists_chronicle_syncHeaders (check : Bool) (before : Workspace) :
    ∃ lines, Chronicle before (before.syncHeaders check) [] lines := by
  let begun := before.print (headingLines "📄 Syncing C headers...")
  let outcome := Header.sync check begun.headers begun.tree
  have heading : Chronicle before ((.ok () : Except Failure Unit), begun) [] _ :=
    .print (by decide) (by decide)
  obtain ⟨lines, told⟩ :=
    exists_chronicle_reportSync check { begun with tree := outcome.2 } outcome.1
  exact ⟨_, (heading.withTree outcome.2).append told⟩

/-- Whether the texts of a stage itself hold no escape character, and it writes to the error stream,
or fails as a call does, only where a call has failed. -/
def Stage.IsClean : Stage → Prop
  | .print lines => (∀ line ∈ lines, line.IsLiteral) ∧ errorLines lines = []
  | .invoke invocation hint => invocation.IsLiteral ∧ ∀ line ∈ hint, line.IsLiteral
  | .runTests invocation => invocation.IsLiteral
  | .headers _ => True
  | .fail failure => ∀ title, failure ≠ .step title

theorem Stage.exists_chronicle {stage : Stage} (clean : stage.IsClean)
    (plain : before.cargo.IsLiteral) :
    ∃ made lines, Chronicle before (stage.run before) made lines := by
  cases stage with
  | print lines => exact ⟨_, _, .print clean.1 clean.2⟩
  | invoke invocation hint =>
      obtain ⟨made, lines, told⟩ := Workspace.exists_chronicle clean.1 plain
      rw [run]
      split
      · next ran =>
          rw [ran] at told
          exact ⟨_, _, told.append .refl⟩
      · next ran =>
          rw [ran] at told
          exact ⟨_, _, told.retype.hinted clean.2⟩
  | runTests invocation =>
      obtain ⟨made, lines, told⟩ := Workspace.exists_chronicle clean plain
      rw [run]
      split
      · next reply after ran =>
          rw [ran] at told
          have summary := List.forall_mem_singleton.mpr (summaryLine_isLiteral reply)
          exact ⟨_, _, told.append (.print summary rfl)⟩
      · next ran =>
          rw [ran] at told
          exact ⟨_, _, told.retype⟩
  | headers check =>
      obtain ⟨lines, told⟩ := before.exists_chronicle_syncHeaders check
      exact ⟨_, _, told⟩
  | fail failure => exact ⟨_, _, .stopped_silently clean⟩

/-- The stages of a plan go on from what those before them have left of the replies. -/
theorem Plan.exists_chronicle {plan : Plan} (clean : ∀ stage ∈ plan, stage.IsClean)
    (plain : before.cargo.IsLiteral) :
    ∃ made lines, Chronicle before (plan.run before) made lines := by
  induction plan generalizing before with
  | nil => exact ⟨_, _, .refl⟩
  | cons stage rest ih =>
      rw [List.forall_mem_cons] at clean
      obtain ⟨made, lines, first⟩ := Stage.exists_chronicle clean.1 plain
      rw [run]
      split
      · next after ran =>
          rw [ran] at first
          have left : after.cargo = _ := first.cargo_eq
          obtain ⟨more, later, told⟩ := ih clean.2 (left ▸ plain.drop made.length)
          exact ⟨_, _, first.append told⟩
      · next ran =>
          rw [ran] at first
          exact ⟨_, _, first⟩

namespace Plan

theorem gap_isClean : gap.IsClean := ⟨by decide, rfl⟩

theorem group_isClean {invocations : List Invocation}
    (literal : ∀ invocation ∈ invocations, invocation.IsLiteral) :
    ∀ stage ∈ group invocations, stage.IsClean := by
  intro stage mem
  rcases mem_group mem with rfl | ⟨invocation, planned, rfl⟩
  · exact gap_isClean
  · exact ⟨literal invocation planned, List.forall_mem_nil _⟩

theorem check_isClean : ∀ stage ∈ check, stage.IsClean := by
  have host : ∀ invocation ∈ hostBuilds, invocation.IsLiteral := by decide
  have embedded : ∀ target ∈ embeddedTargets, ∀ invocation ∈ targetBuilds target,
      invocation.IsLiteral := by decide
  intro stage mem
  rw [check_eq, buildStages, lastStages] at mem
  simp only [List.mem_append, List.mem_cons, List.not_mem_nil, or_false, List.mem_flatMap] at mem
  rcases mem with ((rfl | built) | ⟨target, listed, built⟩) | rfl | rfl | rfl | rfl
  · exact ⟨by decide, rfl⟩
  · exact group_isClean host stage built
  · exact group_isClean (embedded target listed) stage built
  · trivial
  · exact ⟨by decide, List.forall_mem_nil _⟩
  · exact ⟨by decide, by decide⟩
  · exact ⟨by decide, rfl⟩

theorem test_isClean (quick link : Bool) (library : Option (List UInt8)) :
    ∀ stage ∈ test quick link library, stage.IsClean := by
  have runs : ∀ features ∈ testedSets quick link,
      (⟨"Running tests", ["test"], some features⟩ : Invocation).IsLiteral := by
    revert quick link
    decide
  intro stage mem
  rw [test, List.mem_append, List.mem_singleton] at mem
  rcases mem with rfl | mem
  · exact ⟨by decide, rfl⟩
  · split at mem
    · obtain rfl := List.mem_singleton.mp mem
      exact nofun
    · simp only [testRuns, List.mem_append, List.mem_cons, List.not_mem_nil, or_false,
        List.mem_map] at mem
      rcases mem with ⟨features, listed, rfl⟩ | rfl | rfl | rfl
      · exact runs features listed
      · exact gap_isClean
      · exact ⟨by decide, List.forall_mem_nil _⟩
      · exact ⟨by decide, rfl⟩

end Plan

theorem Command.plan_isClean (command : Command) (library : Option (List UInt8)) :
    ∀ stage ∈ command.plan library, stage.IsClean := by
  cases command with
  | headers checkOnly => exact List.forall_mem_singleton.mpr trivial
  | check => exact Plan.check_isClean
  | test quick link => exact Plan.test_isClean quick link library

end Runs

end StaticOpus
