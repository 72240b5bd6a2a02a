import StaticOpus.Program
import StaticOpus.Proofs.Header.Converge
import StaticOpus.Proofs.Terminal

/-!
# A check of the headers

A check never fails and never writes. Whatever stands in the directory, and whatever its route, it
names exactly the headers that are not in place, in their order, and the command that checks tells
of each of them once and fails exactly if there is one.

## Implementation notes

A header is in place if its location can be reached and a file with exactly the header's bytes
stands there. All that can be wrong with a file is one case of this: that it is missing, that it
cannot be reached, that it is a directory, that it is no text, and that it is another text.
-/

namespace StaticOpus.Header

open FileTree

variable {directory : Location} {tree : FileTree} {header : Header}

/-- Whether a header's location leads to a file with exactly the header's bytes. -/
def InPlace (directory : Location) (tree : FileTree) (header : Header) : Prop :=
  ∃ path, tree.locate (header.location directory) = .ok path ∧
    tree.entry path = some (.file header.bytes)

theorem isCurrent_iff_inPlace :
    header.isCurrent directory tree = true ↔ InPlace directory tree header := by
  rw [isCurrent_iff_read, read?_eq_some_iff_locate, InPlace]

instance (directory : Location) (tree : FileTree) (header : Header) :
    Decidable (InPlace directory tree header) :=
  decidable_of_iff (header.isCurrent directory tree = true) isCurrent_iff_inPlace

/-- The headers that are not in place, in their order. -/
def misplaced (directory : Location) (tree : FileTree) : List Header :=
  all.filter fun header => ¬ InPlace directory tree header

theorem staleAmong_all : staleAmong directory tree all = misplaced directory tree := by
  apply List.filter_congr
  intro header _
  rw [Bool.eq_iff_iff]
  simp [← isCurrent_iff_inPlace]

theorem sync_check (directory : Location) (tree : FileTree) :
    sync true directory tree = (.ok (misplaced directory tree), tree) := by
  rw [sync, syncEach_check, staleAmong_all]

theorem misplaced_eq_nil_iff :
    misplaced directory tree = [] ↔ ∀ header : Header, InPlace directory tree header := by
  simp [misplaced, mem_all]

/-! ## The command -/

/-- The lines that a command prints when it checks the headers. -/
def checkLines (stale : List Header) : List Line :=
  headingLines "📄 Syncing C headers..." ++ if stale = [] then currentLines else staleLines stale

/-- A check of the headers in a workspace prints, and changes nothing else. -/
theorem syncHeaders_check (workspace : Workspace) :
    let stale := misplaced workspace.headers workspace.tree
    workspace.syncHeaders true =
      (if stale = [] then .ok () else .error (.stale stale.length),
        workspace.print (checkLines stale)) := by
  intro stale
  have found : sync true workspace.headers workspace.tree = (.ok stale, workspace.tree) :=
    sync_check workspace.headers workspace.tree
  simp only [Workspace.syncHeaders, Workspace.print, found]
  cases stale with
  | nil => simp [Workspace.reportSync, Workspace.print, checkLines]
  | cons first rest => simp [Workspace.reportSync, Workspace.print, checkLines]

/-- What the errors receive of a check that finds some headers not in place. -/
theorem printed_checkLines {stale : List Header} (some_stale : stale ≠ []) :
    printed false .errors (checkLines stale) =
      String.join (stale.map fun header =>
        "  ✗ include/" ++ header.fileName ++ " is out of date\n") ++
        "     Run 'cargo xtask headers' to regenerate\n" := by
  simp only [checkLines, some_stale, if_false, headingLines, staleLines, List.cons_append,
    List.nil_append, printed_blank_cons, printed_output_cons, printed_append, printed_map_errors,
    printed_errors_cons, printed_nil]
  simp [String.append_assoc]

/-- What the errors receive of the failure of a check. -/
theorem printed_report_stale (count : Nat) :
    printed false .errors (Failure.stale count).report =
      "Error: " ++ toString count ++ " header(s) out of date\n" := by
  simp [Failure.report, Failure.messages, String.append_assoc]

theorem run_check (library : Option (List UInt8)) (workspace : Workspace) :
    let stale := misplaced workspace.headers workspace.tree
    runProgram ["headers", "--check"] library workspace =
      .ran (if stale = [] then .ok () else .error (.stale stale.length))
        (workspace.print (checkLines stale)) := by
  have command : Intent.ofArgs ["headers", "--check"] = .run (.headers true) := by decide
  simp only [runProgram, command, Command.plan, Plan.headers, Plan.run, Stage.run,
    syncHeaders_check]
  split_ifs <;> rfl

/-- A check of the headers is pure and exact. In every tree and at every location it succeeds,
changes nothing and names, in their order, exactly the headers that are not in place. The command
that checks leaves the tree as it is, succeeds exactly if every header is in place, and otherwise
fails with the number of those that are not, each of which it has named once and in order. -/
theorem check_names_misplaced (directory : Location) (tree : FileTree)
    (library : Option (List UInt8)) (workspace : Workspace) :
    sync true directory tree =
        (.ok (all.filter fun header => ¬ InPlace directory tree header), tree) ∧
      let stale := all.filter fun header => ¬ InPlace workspace.headers workspace.tree header
      let outcome := runProgram ["headers", "--check"] library workspace
      (outcome.workspace workspace).tree = workspace.tree ∧
      (outcome.exitCode = 0 ↔
        ∀ header : Header, InPlace workspace.headers workspace.tree header) ∧
      (stale ≠ [] →
        outcome = .ran (.error (.stale stale.length)) (outcome.workspace workspace) ∧
        outcome.stderr = printed false .errors workspace.lines ++
          String.join (stale.map fun header =>
            "  ✗ include/" ++ header.fileName ++ " is out of date\n") ++
          "     Run 'cargo xtask headers' to regenerate\n" ++
          "Error: " ++ toString stale.length ++ " header(s) out of date\n") := by
  refine ⟨sync_check directory tree, ?_⟩
  intro stale outcome
  have came_to : outcome = .ran (if stale = [] then .ok () else .error (.stale stale.length))
      (workspace.print (checkLines stale)) := run_check library workspace
  refine ⟨?_, ?_, ?_⟩
  · rw [came_to]
    rfl
  · rw [came_to, ← misplaced_eq_nil_iff]
    change _ ↔ stale = []
    by_cases none_stale : stale = []
    · simp [none_stale, Outcome.exitCode]
    · simp [none_stale, Outcome.exitCode]
  · intro some_stale
    rw [came_to, if_neg some_stale]
    refine ⟨rfl, ?_⟩
    simp only [Outcome.stderr, Workspace.print, printed_append, printed_checkLines some_stale,
      printed_report_stale, String.append_assoc]

end StaticOpus.Header
