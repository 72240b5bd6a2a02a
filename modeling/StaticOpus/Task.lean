import StaticOpus.Cargo
import StaticOpus.Header.Sync
import StaticOpus.Terminal
import StaticOpus.TestSummary

/-!
# Tasks

A task is a plan: stages to go through in order, up to the first that fails. Going through them
calls cargo, keeps headers up to date and prints; the calls made and the lines printed are kept in
order.

## Implementation notes

Lines do not depend on a clock: a number sign stands for the seconds that something took.
-/

namespace StaticOpus

/-- What stops a task. -/
inductive Failure where
  /-- Cargo could not be called. -/
  | spawn (args : List String) (cause : SpawnFault)
  /-- Cargo was called and failed. -/
  | step (title : String)
  /-- Some headers are not up to date. -/
  | stale (count : Nat)
  | sync (fault : SyncFault)
  /-- The pinned codec was asked for without saying where it is. -/
  | noLibrary
  deriving DecidableEq

/-- The messages of a failure, from what was tried to why it failed. -/
def Failure.messages : Failure → List String
  | .spawn args cause => ["Failed to run cargo " ++ String.intercalate " " args, cause.message]
  | .step title => [title ++ " failed"]
  | .stale count => [toString count ++ " header(s) out of date"]
  | .sync fault => fault.messages
  | .noLibrary => ["--link needs OPUS_LIB_DIR pointing at the pinned libopus build"]

/-- The looks of the lines that a task prints. -/
structure Looks where
  /-- A step that has begun. -/
  begun : TextStyle := { colour := some .cyan }
  /-- A heading. -/
  heading : TextStyle := { colour := some .cyan, bold := true }
  /-- A step that succeeded. -/
  passed : TextStyle := { colour := some .green }
  /-- A task that succeeded. -/
  completed : TextStyle := { colour := some .green, bold := true }
  /-- Something that failed. -/
  failed : TextStyle := { colour := some .red, bold := true }
  /-- A remark on a step that succeeded. -/
  remark : TextStyle := { dimmed := true }

/-- The looks of every task. -/
def looks : Looks := {}

/-- What stands for the seconds that something took. -/
def elapsedMark : String := "#s"

/-- The lines of a heading. -/
def headingLines (text : String) : List Line := [.blank, .output text looks.heading, .blank]

namespace Invocation

/-- The line before a call. -/
def begunLine (invocation : Invocation) : Line :=
  .output ("  " ++ invocation.title ++ "...") looks.begun

/-- The line after a call that succeeded. -/
def passedLine (invocation : Invocation) : Line :=
  .output ("  ✓ " ++ invocation.title ++ " passed in " ++ elapsedMark) looks.passed

/-- The lines after a call that failed: both of its outputs follow, as they are. -/
def failedLines (invocation : Invocation) (reply : Reply) : List Line := [
  .errors ("  ✗ " ++ invocation.title ++ " failed") looks.failed,
  .errors "" .plain,
  .errors (Text.Utf8.lossyString reply.stdout) .plain,
  .errors (Text.Utf8.lossyString reply.stderr) .plain]

end Invocation

/-- The line that sums up the tests of a call. -/
def summaryLine (reply : Reply) : Line :=
  ⟨.output, [⟨.plain, "    "⟩, ⟨looks.remark, testSummary reply.stdout⟩]⟩

namespace Header

/-- The lines of a sync that found nothing to do. -/
def currentLines : List Line := [.output "  ✓ Headers are up to date" looks.passed, .blank]

/-- The lines of a sync that wrote some headers. -/
def wroteLines (written : List Header) : List Line :=
  written.map (fun header => .output ("  ✓ Wrote include/" ++ header.fileName) looks.passed) ++
    [.blank]

/-- The lines of a check that found some headers out of date. -/
def staleLines (stale : List Header) : List Line :=
  stale.map (fun header =>
    .errors ("  ✗ include/" ++ header.fileName ++ " is out of date") looks.failed) ++
    [.errors "     Run 'cargo xtask headers' to regenerate" .plain]

end Header

/-- The surroundings of a task: cargo, a file tree with the directory of the headers, and what has
been called and printed so far. -/
structure Workspace where
  cargo : Cargo
  tree : FileTree
  headers : Location
  calls : List (List String) := []
  lines : List Line := []

namespace Workspace

/-- The workspace after some lines have been printed. -/
def print (lines : List Line) (workspace : Workspace) : Workspace :=
  { workspace with lines := workspace.lines ++ lines }

/-- The workspace after a call has been made. -/
def noteCall (command : List String) (cargo : Cargo) (workspace : Workspace) : Workspace :=
  { workspace with cargo := cargo, calls := workspace.calls ++ [command] }

/-- Calls cargo, with a line before it and a line or an account of the failure after it. -/
def invoke (invocation : Invocation) (workspace : Workspace) : Except Failure Reply × Workspace :=
  let begun := workspace.print [invocation.begunLine]
  match begun.cargo.call invocation with
  | .error cause => (.error (.spawn invocation.args cause), begun)
  | .ok (reply, cargo) =>
    let called := begun.noteCall invocation.command cargo
    if reply.succeeded then (.ok reply, called.print [invocation.passedLine])
    else (.error (.step invocation.title), called.print (invocation.failedLines reply))

/-- Tells what a sync came to. A check fails if it found some headers out of date. -/
def reportSync (check : Bool) (workspace : Workspace) :
    Except SyncFault (List Header) → Except Failure Unit × Workspace
  | .error fault => (.error (.sync fault), workspace)
  | .ok [] => (.ok (), workspace.print Header.currentLines)
  | .ok (first :: rest) =>
    let stale := first :: rest
    if check then (.error (.stale stale.length), workspace.print (Header.staleLines stale))
    else (.ok (), workspace.print (Header.wroteLines stale))

/-- Brings the headers up to date, or with `check` fails if they are not. -/
def syncHeaders (check : Bool) (workspace : Workspace) : Except Failure Unit × Workspace :=
  let begun := workspace.print (headingLines "📄 Syncing C headers...")
  let outcome := Header.sync check begun.headers begun.tree
  reportSync check { begun with tree := outcome.2 } outcome.1

end Workspace

/-- A stage of a plan. -/
inductive Stage where
  /-- Print some lines. -/
  | print (lines : List Line)
  /-- Call cargo, and on failure print a hint. -/
  | invoke (invocation : Invocation) (hint : List Line)
  /-- Call cargo to run tests, and on success print a summary of them. -/
  | runTests (invocation : Invocation)
  /-- Bring the headers up to date, or check that they are. -/
  | headers (check : Bool)
  /-- Stop. -/
  | fail (failure : Failure)

namespace Stage

/-- Goes through one stage. -/
def run : Stage → Workspace → Except Failure Unit × Workspace
  | .print lines, workspace => (.ok (), workspace.print lines)
  | .invoke invocation hint, workspace =>
    match workspace.invoke invocation with
    | (.ok _, after) => (.ok (), after)
    | (.error failure, after) => (.error failure, after.print hint)
  | .runTests invocation, workspace =>
    match workspace.invoke invocation with
    | (.ok reply, after) => (.ok (), after.print [summaryLine reply])
    | (.error failure, after) => (.error failure, after)
  | .headers check, workspace => workspace.syncHeaders check
  | .fail failure, workspace => (.error failure, workspace)

end Stage

/-- The stages of a task, in order. -/
abbrev Plan := List Stage

namespace Plan

/-- Goes through the stages of a plan, up to the first that fails. -/
def run : Plan → Workspace → Except Failure Unit × Workspace
  | [], workspace => (.ok (), workspace)
  | stage :: rest, workspace =>
    match stage.run workspace with
    | (.ok (), after) => run rest after
    | (.error failure, after) => (.error failure, after)

end Plan

end StaticOpus
