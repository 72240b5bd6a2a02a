import StaticOpus.CommandLine.Pages

/-!
# The program

What a command line comes to: a page, a refusal, or a command that was run. A failed command is
reported with all its messages after everything that it printed itself.
-/

namespace StaticOpus

/-- What a command line came to. -/
inductive Outcome where
  | page (page : Page)
  | refused (fault : UsageFault)
  | ran (result : Except Failure Unit) (workspace : Workspace)

/-- The lines that report why a command failed. -/
def Failure.report (failure : Failure) : List Line :=
  match failure.messages with
  | [] => []
  | message :: causes =>
    .errors ("Error: " ++ message) .plain ::
      if causes = [] then []
      else
        [.errors "" .plain, .errors "Caused by:" .plain] ++
          causes.map fun cause => .errors ("    " ++ cause) .plain

namespace Outcome

/-- The exit code: success for a page, and for a command that succeeded. -/
def exitCode : Outcome → Nat
  | .page _ => 0
  | .refused _ => 2
  | .ran (.ok ()) _ => 0
  | .ran (.error _) _ => 1

/-- What the output received. -/
def stdout : Outcome → String
  | .page shown => shown.text
  | .refused _ => ""
  | .ran _ workspace => printed false .output workspace.lines

/-- What the error stream received; of a refusal, its first line. -/
def stderr : Outcome → String
  | .page _ => ""
  | .refused fault => fault.headline
  | .ran (.ok ()) workspace => printed false .errors workspace.lines
  | .ran (.error failure) workspace => printed false .errors (workspace.lines ++ failure.report)

/-- The surroundings after it, given those before. -/
def workspace (before : Workspace) : Outcome → Workspace
  | .ran _ after => after
  | _ => before

end Outcome

/-- Runs a command line. -/
def runProgram (args : List String) (library : Option (List UInt8)) (workspace : Workspace) :
    Outcome :=
  match Intent.ofArgs args with
  | .page page => .page page
  | .refuse fault => .refused fault
  | .run command =>
    let (result, workspace) := (command.plan library).run workspace
    .ran result workspace

end StaticOpus
