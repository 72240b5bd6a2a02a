import StaticOpus.Task

/-!
# The plans of the tasks

The tasks of the project: keeping the headers, checking the builds, running the tests. Builds are
checked and tests are run once for each of a fixed list of feature combinations.
-/

namespace StaticOpus

/-- The feature combinations that are built for every target. -/
def featureSets : List String := ["", "stereo", "custom-support", "stereo,custom-support"]

/-- The feature combinations that need the pinned codec to link against. -/
def linkFeatureSets : List String := ["link", "stereo,link"]

/-- The arguments for lints, with warnings as errors. -/
def lintArgs : List String := ["clippy", "--workspace", "--all-targets", "--", "-D", "warnings"]

/-- The arguments for the formatting check. -/
def formatArgs : List String := ["fmt", "--all", "--check"]

/-- The bare-metal targets. -/
def embeddedTargets : List String := ["thumbv6m-none-eabi", "thumbv7em-none-eabihf"]

namespace Plan

/-- The lines above a task. -/
def heading (text : String) : Stage := .print (headingLines text)

/-- The lines below a finished task. -/
def closing (text : String) : Stage :=
  .print [
    .blank, .output ("✓ " ++ text ++ " completed in " ++ elapsedMark) looks.completed, .blank]

/-- An empty line between groups of stages. -/
def gap : Stage := .print [.blank]

/-- The plan that keeps or checks the headers. -/
def headers (check : Bool) : Plan := [.headers check]

/-- The builds that are checked for one group: every feature combination, and one more. -/
def builds (label : String) (args : List String) (extra : String) : List Invocation :=
  (featureSets ++ [extra]).map fun features => ⟨label, args, some features⟩

/-- The builds that are checked for the host. -/
def hostBuilds : List Invocation :=
  builds "Checking host target" ["check"] "stereo,custom-support,tracing,link"

/-- The builds that are checked for a bare-metal target. -/
def targetBuilds (target : String) : List Invocation :=
  builds ("Checking " ++ target) ["check", "--target", target] "stereo,custom-support,defmt"

/-- The stages that check a group of builds. -/
def group (invocations : List Invocation) : List Stage :=
  invocations.map (fun invocation => .invoke invocation []) ++ [gap]

/-- The plan that checks everything: builds, headers, lints and formatting. -/
def check : Plan :=
  [heading "🔍 Checking opus-shim builds..."] ++ group hostBuilds ++
    embeddedTargets.flatMap (fun target => group (targetBuilds target)) ++
    [.headers true,
      .invoke ⟨"Running clippy (warnings denied)", lintArgs, none⟩ [],
      .invoke ⟨"Checking formatting", formatArgs, none⟩
        [.errors "     Run 'cargo fmt --all' to fix" .plain],
      closing "All checks"]

/-- The tests of the package for some feature combinations. -/
def testRuns (sets : List String) : List Stage :=
  sets.map fun features => .runTests ⟨"Running tests", ["test"], some features⟩

/-- The feature combinations that are tested. -/
def testedSets (quick link : Bool) : List String :=
  (if quick then [""] else featureSets) ++ if link then linkFeatureSets else []

/-- The plan that runs the tests: for the default features only if `quick`, and also against the
pinned codec if `link`, which needs to know where that is. -/
def test (quick link : Bool) (library : Option (List UInt8)) : Plan :=
  [heading "🧪 Running tests..."] ++
    if link ∧ library.getD [] = [] then [.fail .noLibrary]
    else
      testRuns (testedSets quick link) ++
        [gap, .invoke ⟨"Running xtask tests", ["test", "-p", "xtask"], none⟩ [],
          closing "All tests"]

end Plan

end StaticOpus
