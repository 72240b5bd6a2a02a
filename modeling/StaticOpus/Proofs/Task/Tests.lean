import StaticOpus.Proofs.Task.Calls
import StaticOpus.Task.Plans

/-!
# A test run

A test run makes the calls that its flags ask for, in a fixed order, up to the first that fails, and
it succeeds exactly if none does. Each run of the package's tests that succeeded is summed up once,
from its own output. A run against the pinned codec that does not know where that is makes no call.
-/

namespace StaticOpus

/-- The call that runs the tests of the package for a feature combination. -/
def packageTest (features : String) : PlannedCall where
  title := "Running tests [" ++ (if features = "" then "default" else features) ++ "]"
  command := ["test", "-p", "opus-shim"] ++ if features = "" then [] else ["--features", features]
  summed := true

/-- The call that runs the tests of the tasks. -/
def taskTest : PlannedCall where
  title := "Running xtask tests"
  command := ["test", "-p", "xtask"]
  summed := false

/-- The calls of a test run, in order: the tests of the package for each feature combination, then
those of the tasks. -/
def plannedTests (quick link : Bool) : List PlannedCall :=
  ((if quick then [""] else ["", "stereo", "custom-support", "stereo,custom-support"]) ++
    if link then ["link", "stereo,link"] else []).map packageTest ++ [taskTest]

namespace Plan

/-- Whether a test run against the pinned codec lacks the place of that. -/
def LacksLibrary (link : Bool) (library : Option (List UInt8)) : Prop :=
  link = true ∧ (library = none ∨ library = some [])

theorem lacksLibrary_iff {link : Bool} {library : Option (List UInt8)} :
    LacksLibrary link library ↔ link = true ∧ library.getD [] = [] := by
  cases library <;> simp [LacksLibrary]

variable {quick link : Bool} {library : Option (List UInt8)}

theorem test_of_lacksLibrary (lacks : LacksLibrary link library) :
    test quick link library = [heading "🧪 Running tests...", .fail .noLibrary] := by
  rw [test, if_pos (lacksLibrary_iff.mp lacks)]
  rfl

theorem testRuns_calls (sets : List String) :
    (testRuns sets).filterMap Stage.call? = sets.map packageTest := by
  induction sets with
  | nil => rfl
  | cons features rest ih =>
      have call : Stage.call? (.runTests ⟨"Running tests", ["test"], some features⟩) =
          some (packageTest features) := rfl
      rw [testRuns] at ih ⊢
      rw [List.map_cons, List.filterMap_cons_some call, ih, List.map_cons]

theorem test_calls (ready : ¬ LacksLibrary link library) :
    (test quick link library).filterMap Stage.call? = plannedTests quick link := by
  rw [lacksLibrary_iff] at ready
  rw [test, if_neg ready, List.filterMap_append, List.filterMap_append, testRuns_calls]
  rfl

theorem passable_of_mem_testedSets {features : String} (mem : features ∈ testedSets quick link) :
    (⟨"Running tests", ["test"], some features⟩ : Invocation).isPassable = true := by
  revert features quick link
  decide

theorem test_orderly (ready : ¬ LacksLibrary link library) :
    ∀ stage ∈ test quick link library, stage.Orderly := by
  rw [lacksLibrary_iff] at ready
  rw [test, if_neg ready]
  intro stage mem
  simp only [testRuns, List.mem_append, List.mem_cons, List.not_mem_nil, or_false,
    List.mem_map] at mem
  rcases mem with rfl | ⟨features, mem, rfl⟩ | rfl | rfl | rfl
  · rfl
  · refine ⟨passable_of_mem_testedSets mem, ?_⟩
    simp [summaries, Invocation.begunLine, Invocation.title, Line.output, Line.isSummary,
      Line.text, List.isPrefixOf]
  · rfl
  · exact ⟨by decide, rfl, rfl⟩
  · rfl

/-- A test run stops at its first failure and is complete without one. If it lacks the codec that it
is to run against, it fails before any call. Otherwise it makes its planned calls in order, up to
and with the first that fails, succeeds exactly if none fails, and names the one that did. For each
run of the package's tests that succeeded it prints one summary, in order and of that run's own
output. -/
theorem test_stops_at_first_failure (quick link : Bool) (library : Option (List UInt8))
    (replies : List Reply) (workspace : Workspace) (cargo : workspace.cargo = some replies) :
    let outcome := (test quick link library).run workspace
    let answers := answered (plannedTests quick link) replies
    let passed := answers.takeWhile fun answer => answer.2.code = 0
    (LacksLibrary link library →
      outcome.1 = .error .noLibrary ∧ outcome.2.calls = workspace.calls) ∧
    (¬ LacksLibrary link library →
      outcome.2.calls = workspace.calls ++
        ((plannedTests quick link).take (passed.length + 1)).map (·.command) ∧
      (outcome.1 = .ok () ↔ ∀ answer ∈ answers, answer.2.code = 0) ∧
      (∀ failing, answers[passed.length]? = some failing →
        ∃ failure, outcome.1 = .error failure ∧
          failure.messages = [failing.1.title ++ " failed"]) ∧
      summaries outcome.2.lines = summaries workspace.lines ++
        (passed.filter (·.1.summed)).map fun answer => "    " ++ testSummary answer.2.stdout) := by
  intro outcome answers passed
  constructor
  · intro lacks
    have stages : test quick link library = _ := test_of_lacksLibrary lacks
    simp only [outcome, stages]
    exact ⟨rfl, rfl⟩
  · intro ready
    have orderly : ∀ stage ∈ test quick link library, stage.Orderly := test_orderly ready
    obtain ⟨after, ran, advanced⟩ := run_of_orderly orderly cargo
    rw [test_calls ready] at ran advanced
    have result : outcome = (verdict answers, after) := ran
    rw [result]
    refine ⟨advanced.calls, ?_, ?_, advanced.summaries⟩
    · rw [verdict_eq_ok_iff]
      simp [Reply.succeeded]
    · intro failing h
      exact ⟨_, verdict_of_getElem? h, rfl⟩

theorem test_stops_at_second_call :
    let replies : List Reply :=
      [{ stdout := Text.Utf8.encode "test result: ok. 3 passed; 0 failed" }, { code := 101 }]
    let outcome := (test false false none).run ⟨some replies, .nothing, ⟨[], "include"⟩, [], []⟩
    outcome.2.calls =
        [["test", "-p", "opus-shim"], ["test", "-p", "opus-shim", "--features", "stereo"]] ∧
      (∃ failure, outcome.1 = .error failure ∧
        failure.messages = ["Running tests [stereo] failed"]) ∧
      summaries outcome.2.lines = ["    3 passed; 0 failed across 1 test binaries"] := by
  intro replies outcome
  obtain ⟨-, stops⟩ := test_stops_at_first_failure false false none replies
    ⟨some replies, .nothing, ⟨[], "include"⟩, [], []⟩ rfl
  obtain ⟨calls, -, fails, sums⟩ := stops (by simp [LacksLibrary])
  have summary : testSummary (Text.Utf8.encode "test result: ok. 3 passed; 0 failed") =
      "3 passed; 0 failed across 1 test binaries" := by decide
  refine ⟨calls, fails _ rfl, sums.trans ?_⟩
  change ["    " ++ testSummary (Text.Utf8.encode "test result: ok. 3 passed; 0 failed")] = _
  rw [summary]
  rfl

end Plan

end StaticOpus
