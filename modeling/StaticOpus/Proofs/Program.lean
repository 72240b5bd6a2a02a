import StaticOpus.Program
import StaticOpus.Proofs.CommandLine
import StaticOpus.Proofs.Terminal

/-!
# What a run of the program comes to

A command line is refused, or shows a page, or has a command run, and whoever called the program can
tell which of these it was. Nothing is called and no file is touched before the command line has
been read to its end. A command that is run goes through the plan that its name and its flags lead
to, and through no other.

## Implementation notes

A page and a command that succeeds have the same exit code. They are told apart by the output: every
command prints an empty line first, and no page begins with one.
-/

namespace StaticOpus

/-- The account of a failure: its messages from what was tried to why it failed, one a line. -/
def errorReport : List String → String
  | [] => ""
  | message :: causes =>
    "Error: " ++ message ++ "\n" ++
      if causes = [] then ""
      else "\nCaused by:\n" ++ String.join (causes.map fun cause => "    " ++ cause ++ "\n")

theorem Failure.printed_report (failure : Failure) :
    printed false .errors failure.report = errorReport failure.messages := by
  unfold Failure.report errorReport
  cases failure.messages with
  | nil => rfl
  | cons message causes =>
      by_cases alone : causes = []
      · simp [alone]
      · simp only [if_neg alone, List.cons_append, List.nil_append, printed_errors_cons,
          printed_map_errors, String.append_assoc, String.empty_append]
        rfl

/-! ## What a run prints -/

section Lines

variable {workspace : Workspace}

theorem Workspace.lines_prefix_invoke (invocation : Invocation) (workspace : Workspace) :
    workspace.lines <+: (workspace.invoke invocation).2.lines := by
  simp only [invoke]
  split
  · exact List.prefix_append _ _
  · split
    · exact (List.prefix_append _ _).trans (List.prefix_append _ _)
    · exact (List.prefix_append _ _).trans (List.prefix_append _ _)

theorem Workspace.lines_prefix_reportSync (check : Bool) (workspace : Workspace)
    (result : Except SyncFault (List Header)) :
    workspace.lines <+: (reportSync check workspace result).2.lines := by
  unfold reportSync
  split
  · exact List.prefix_rfl
  · exact List.prefix_append _ _
  · split
    · exact List.prefix_append _ _
    · exact List.prefix_append _ _

/-- A sync begins with its heading. -/
theorem Workspace.lines_prefix_syncHeaders (check : Bool) (workspace : Workspace) :
    workspace.lines ++ headingLines "📄 Syncing C headers..." <+:
      (workspace.syncHeaders check).2.lines := by
  let begun := workspace.print (headingLines "📄 Syncing C headers...")
  let outcome := Header.sync check begun.headers begun.tree
  exact lines_prefix_reportSync check { begun with tree := outcome.2 } outcome.1

/-- No stage takes back what has been printed. -/
theorem Stage.lines_prefix_run (stage : Stage) (workspace : Workspace) :
    workspace.lines <+: (stage.run workspace).2.lines := by
  cases stage with
  | print lines => exact List.prefix_append _ _
  | invoke invocation hint =>
      have called := workspace.lines_prefix_invoke invocation
      simp only [run]
      split
      · next ran => rwa [ran] at called
      · next ran =>
          rw [ran] at called
          exact called.trans (List.prefix_append _ _)
  | runTests invocation =>
      have called := workspace.lines_prefix_invoke invocation
      simp only [run]
      split
      · next ran =>
          rw [ran] at called
          exact called.trans (List.prefix_append _ _)
      · next ran => rwa [ran] at called
  | headers check =>
      exact (List.prefix_append _ _).trans (workspace.lines_prefix_syncHeaders check)
  | fail failure => exact List.prefix_rfl

/-- So no plan does. -/
theorem Plan.lines_prefix_run (plan : Plan) (workspace : Workspace) :
    workspace.lines <+: (plan.run workspace).2.lines := by
  induction plan generalizing workspace with
  | nil => exact List.prefix_rfl
  | cons stage rest ih =>
      have first := stage.lines_prefix_run workspace
      rw [run]
      split
      · next after ran =>
          rw [ran] at first
          exact first.trans (ih after)
      · next ran => rwa [ran] at first

theorem Plan.lines_prefix_run_heading (text : String) (rest : Plan) (workspace : Workspace) :
    workspace.lines ++ headingLines text <+:
      (Plan.run (heading text :: rest) workspace).2.lines :=
  Plan.lines_prefix_run rest (workspace.print (headingLines text))

/-- Whatever command is run, it prints a heading first. -/
theorem Command.exists_heading (command : Command) (library : Option (List UInt8))
    (workspace : Workspace) :
    ∃ text, workspace.lines ++ headingLines text <+:
      ((command.plan library).run workspace).2.lines := by
  cases command with
  | headers checkOnly =>
      refine ⟨"📄 Syncing C headers...", ?_⟩
      have synced := workspace.lines_prefix_syncHeaders checkOnly
      simp only [plan, Plan.headers, Plan.run, Stage.run]
      split
      · next ran => rwa [ran] at synced
      · next ran => rwa [ran] at synced
  | check => exact ⟨_, Plan.lines_prefix_run_heading _ _ workspace⟩
  | test quick link => exact ⟨_, Plan.lines_prefix_run_heading _ _ workspace⟩

end Lines

theorem printed_blank_output (lines : List Line) :
    printed false .output (.blank :: lines) = "\n" ++ printed false .output lines := by
  apply String.toList_inj.mp
  simp [printed, Line.blank, Line.output, Line.render, Span.render]

/-- The output of a command that nothing was printed before begins with an empty line. -/
theorem Command.exists_printed (command : Command) (library : Option (List UInt8))
    {workspace : Workspace} (unused : workspace.lines = []) :
    ∃ rest,
      printed false .output ((command.plan library).run workspace).2.lines = "\n" ++ rest := by
  obtain ⟨text, more, lines⟩ := command.exists_heading library workspace
  rw [← lines, unused, List.nil_append, headingLines, List.cons_append, printed_blank_output]
  exact ⟨_, rfl⟩

/-- Every page begins with a title, and no title with the end of a line. -/
theorem Page.exists_title (page : Page) :
    ∃ title rest : String, page.text = title ++ rest ∧
      ∃ first more, title.toList = first :: more ∧ first ≠ '\n' := by
  have help (about usage : String) (listings : List Listing) :
      ∃ rest, helpText about usage listings = about ++ rest :=
    ⟨_, by simp only [helpText, String.append_assoc]; rfl⟩
  cases page with
  | version =>
      exact ⟨programName, _, by simp only [text, String.append_assoc]; rfl, 'x', _, rfl, by decide⟩
  | overview =>
      obtain ⟨rest, text⟩ := help programAbout _ _
      exact ⟨programAbout, rest, text, 'o', _, rfl, by decide⟩
  | command verb =>
      obtain ⟨rest, text⟩ := help verb.about _ _
      refine ⟨verb.about, rest, text, ?_⟩
      cases verb with
      | headers => exact ⟨'R', _, rfl, by decide⟩
      | check => exact ⟨'C', _, rfl, by decide⟩
      | test => exact ⟨'R', _, rfl, by decide⟩
  | help =>
      obtain ⟨rest, text⟩ := help helpAbout _ _
      exact ⟨helpAbout, rest, text, 'P', _, rfl, by decide⟩

/-- So no page begins with an empty line. -/
theorem Page.text_ne (page : Page) (rest : String) : page.text ≠ "\n" ++ rest := by
  obtain ⟨title, others, text, first, more, titled, other⟩ := page.exists_title
  intro same
  have characters := congrArg String.toList (text.symm.trans same)
  rw [String.toList_append, String.toList_append, titled] at characters
  exact other (List.cons.inj characters).1

/-! ## The three ways in which a run can end -/

namespace Outcome

variable {before : Workspace} {outcome : Outcome} {plan : Plan} {library : Option (List UInt8)}

/-- The command line was refused: nothing was called, written or put out. -/
structure IsUsageError (before : Workspace) (outcome : Outcome) : Prop where
  code : outcome.exitCode = 2
  calls : (outcome.workspace before).calls = before.calls
  tree : (outcome.workspace before).tree = before.tree
  stdout : outcome.stdout = ""

/-- A page was shown: nothing was called or written, and there was no error. -/
structure IsPage (before : Workspace) (outcome : Outcome) : Prop where
  code : outcome.exitCode = 0
  calls : (outcome.workspace before).calls = before.calls
  tree : (outcome.workspace before).tree = before.tree
  stdout : ∃ page : Page, outcome.stdout = page.text
  stderr : outcome.stderr = ""

/-- A plan was gone through, and its end is told by the exit code. A failure is reported after what
the plan itself wrote to the error stream. -/
structure IsRunOf (plan : Plan) (before : Workspace) (outcome : Outcome) : Prop where
  calls : (outcome.workspace before).calls = (plan.run before).2.calls
  tree : (outcome.workspace before).tree = (plan.run before).2.tree
  stdout : outcome.stdout = printed false .output (plan.run before).2.lines
  ended : match plan.run before with
    | (.ok (), after) => outcome.exitCode = 0 ∧ outcome.stderr = printed false .errors after.lines
    | (.error failure, after) => outcome.exitCode = 1 ∧
        outcome.stderr = printed false .errors after.lines ++ errorReport failure.messages

/-- The plan of some command with some flags was gone through. -/
def IsCommandRun (library : Option (List UInt8)) (before : Workspace) (outcome : Outcome) : Prop :=
  ∃ (verb : Verb) (flags : List Flag) (plan : Plan),
    verb.LeadsTo library flags plan ∧ outcome.IsRunOf plan before

theorem isUsageError_refused (before : Workspace) (fault : UsageFault) :
    (refused fault).IsUsageError before := ⟨rfl, rfl, rfl, rfl⟩

theorem isPage_page (before : Workspace) (shown : Page) : (page shown).IsPage before :=
  ⟨rfl, rfl, rfl, ⟨shown, rfl⟩, rfl⟩

theorem isRunOf_ran (plan : Plan) (before : Workspace) :
    (ran (plan.run before).1 (plan.run before).2).IsRunOf plan before := by
  refine ⟨rfl, rfl, rfl, ?_⟩
  rcases plan.run before with ⟨failure | done, after⟩
  · refine ⟨rfl, ?_⟩
    simp only [stderr, printed_append, Failure.printed_report]
  · exact ⟨rfl, rfl⟩

theorem IsUsageError.not_isPage (refused : outcome.IsUsageError before) :
    ¬ outcome.IsPage before := by
  intro page
  have code := refused.code
  rw [page.code] at code
  cases code

theorem IsRunOf.exitCode_ne (ran : outcome.IsRunOf plan before) : outcome.exitCode ≠ 2 := by
  intro code
  have ended := ran.ended
  split at ended
  · rw [code] at ended
    cases ended.1
  · rw [code] at ended
    cases ended.1

theorem IsUsageError.not_isCommandRun (refused : outcome.IsUsageError before) :
    ¬ outcome.IsCommandRun library before := by
  rintro ⟨verb, flags, plan, -, ran⟩
  exact ran.exitCode_ne refused.code

theorem IsPage.not_isCommandRun (unused : before.lines = []) (page : outcome.IsPage before) :
    ¬ outcome.IsCommandRun library before := by
  rintro ⟨verb, flags, plan, leads, ran⟩
  obtain rfl := Verb.leadsTo_iff.mp leads
  obtain ⟨shown, text⟩ := page.stdout
  obtain ⟨rest, output⟩ := (verb.command flags).exists_printed library unused
  exact shown.text_ne rest (text.symm.trans (ran.stdout.trans output))

end Outcome

section Runs

variable {args : List String} {library : Option (List UInt8)} {before : Workspace}

theorem isUsageError_of_refuse {fault : UsageFault} (refused : Intent.ofArgs args = .refuse fault) :
    (runProgram args library before).IsUsageError before := by
  rw [runProgram, refused]
  exact Outcome.isUsageError_refused before fault

theorem isPage_of_page {page : Page} (shown : Intent.ofArgs args = .page page) :
    (runProgram args library before).IsPage before := by
  rw [runProgram, shown]
  exact Outcome.isPage_page before page

/-- A command line that names a command has its plan gone through. -/
theorem isRunOf_of_names {verb : Verb} {flags : List Flag} {plan : Plan}
    (names : CommandLine.Names verb flags args) (leads : verb.LeadsTo library flags plan) :
    (runProgram args library before).IsRunOf plan before := by
  rw [runProgram, Intent.ofArgs_eq_run names, Verb.leadsTo_iff.mp leads]
  exact Outcome.isRunOf_ran _ before

end Runs

/-- Every command line comes to exactly one of three things, whatever the surroundings: a usage
error, a page, or the run of a command. A command is run exactly where the command line names it and
is complete, with at most a separator behind it, and what is gone through is the plan of that
command with just the flags given. Any other command line without a separator is a usage error,
unless a page is asked for before anything is out of place; and that page is then shown. -/
theorem runs_in_exactly_one_way (library : Option (List UInt8)) (cargo : Cargo) (tree : FileTree)
    (headers : Location) :
    let before : Workspace := { cargo, tree, headers }
    (∀ args, let outcome := runProgram args library before
      (outcome.IsUsageError before ∧ ¬ outcome.IsPage before ∧
        ¬ outcome.IsCommandRun library before) ∨
      (¬ outcome.IsUsageError before ∧ outcome.IsPage before ∧
        ¬ outcome.IsCommandRun library before) ∨
      (¬ outcome.IsUsageError before ∧ ¬ outcome.IsPage before ∧
        outcome.IsCommandRun library before)) ∧
    (∀ (args : List String) (verb : Verb) (flags : List Flag) (plan : Plan),
      CommandLine.Names verb flags args → verb.LeadsTo library flags plan →
        (runProgram args library before).IsRunOf plan before) ∧
    (∀ args, (runProgram args library before).IsCommandRun library before →
      ∃ verb flags, CommandLine.Names verb flags args) ∧
    (∀ args, "--" ∉ args → ¬ CommandLine.IsComplete args →
      (runProgram args library before).IsUsageError before ∨
        ∃ earlier word later, args = earlier ++ word :: later ∧
          CommandLine.IsWellBegun earlier ∧ AsksForPage earlier word later) ∧
    ∀ earlier word later, CommandLine.IsWellBegun earlier → AsksForPage earlier word later →
      (runProgram (earlier ++ word :: later) library before).IsPage before := by
  intro before
  have leads (verb : Verb) (flags : List Flag) :
      verb.LeadsTo library flags ((verb.command flags).plan library) := Verb.leadsTo_iff.mpr rfl
  refine ⟨?_, fun args verb flags plan => isRunOf_of_names, ?_, ?_, ?_⟩
  · intro args outcome
    cases intent : Intent.ofArgs args with
    | refuse fault =>
        have refused : outcome.IsUsageError before := isUsageError_of_refuse intent
        exact Or.inl ⟨refused, refused.not_isPage, refused.not_isCommandRun⟩
    | page shown =>
        have page : outcome.IsPage before := isPage_of_page intent
        exact Or.inr (Or.inl ⟨fun refused => refused.not_isPage page, page,
          page.not_isCommandRun rfl⟩)
    | run command =>
        obtain ⟨verb, flags, names, rfl⟩ := Intent.ofArgs_eq_run_iff.mp intent
        have ran : outcome.IsCommandRun library before :=
          ⟨verb, flags, _, leads verb flags, isRunOf_of_names names (leads verb flags)⟩
        exact Or.inr (Or.inr ⟨fun refused => refused.not_isCommandRun ran,
          fun page => page.not_isCommandRun rfl ran, ran⟩)
  · intro args ran
    cases intent : Intent.ofArgs args with
    | refuse fault => exact absurd ran (isUsageError_of_refuse intent).not_isCommandRun
    | page shown => exact absurd ran ((isPage_of_page intent).not_isCommandRun rfl)
    | run command =>
        obtain ⟨verb, flags, names, -⟩ := Intent.ofArgs_eq_run_iff.mp intent
        exact ⟨verb, flags, names⟩
  · intro args no_separator incomplete
    rcases Intent.ofArgs_cases no_separator with complete | asks | ⟨fault, refused⟩
    · exact absurd complete incomplete
    · exact Or.inr asks
    · exact Or.inl (isUsageError_of_refuse refused)
  · intro earlier word later begun asks
    obtain ⟨page, shown⟩ := Intent.exists_page begun asks
    exact isPage_of_page shown

/-- Tests with both flags, in either order, are called for just the feature combinations of these
flags. Without knowing where the pinned codec is they fail before the first call. A flag of another
command is refused, and tolerated after a flag for help. -/
theorem test_flags_run_in_one_way :
    let before : Workspace := { cargo := some [], tree := .nothing, headers := ⟨[], "include"⟩ }
    let library := some (Text.Utf8.encode "/opt/opus")
    let linked := runProgram ["test", "--link", "--quick"] library before
    let unlinked := runProgram ["test", "--link"] none before
    (linked.exitCode = 0 ∧ (linked.workspace before).calls =
      [["test", "-p", "opus-shim"], ["test", "-p", "opus-shim", "--features", "link"],
        ["test", "-p", "opus-shim", "--features", "stereo,link"], ["test", "-p", "xtask"]]) ∧
    (unlinked.exitCode = 1 ∧ (unlinked.workspace before).calls = [] ∧
      unlinked.stderr =
        "Error: --link needs OPUS_LIB_DIR pointing at the pinned libopus build\n") ∧
    (runProgram ["test", "--quick", "--check"] none before).IsUsageError before ∧
    (runProgram ["test", "--quick", "-h", "--check"] none before).IsPage before := by
  intro before library linked unlinked
  obtain ⟨-, run, -, refused, page⟩ :=
    runs_in_exactly_one_way none (some []) .nothing ⟨[], "include"⟩
  refine ⟨?_, ?_, ?_, ?_⟩
  · have names : CommandLine.Names .test [.link, .quick] ["test", "--link", "--quick"] :=
      ⟨⟨by decide, by decide⟩, Or.inl (by decide)⟩
    have ran : linked.IsRunOf (Plan.test true true library) before :=
      (runs_in_exactly_one_way library (some []) .nothing ⟨[], "include"⟩).2.1 _ _ _ _ names .test
    exact ⟨ran.ended.1, ran.calls.trans (by decide)⟩
  · have names : CommandLine.Names .test [.link] ["test", "--link"] :=
      ⟨⟨by decide, by decide⟩, Or.inl (by decide)⟩
    have ran : unlinked.IsRunOf (Plan.test false true none) before := run _ _ _ _ names .test
    exact ⟨ran.ended.1, ran.calls, ran.ended.2.trans (by decide)⟩
  · have incomplete : ¬ CommandLine.IsComplete ["test", "--quick", "--check"] := by
      rintro ⟨verb, flags, admits, same⟩
      have read : Intent.ofArgs ["test", "--quick", "--check"] =
          .refuse (.unexpectedWord "--check") := by decide
      rw [Intent.ofArgs_eq_run ⟨admits, Or.inl same⟩] at read
      cases read
    rcases refused ["test", "--quick", "--check"] (by decide) incomplete with
      error | ⟨earlier, word, rest, split, -, asks⟩
    · exact error
    · have silent : ∀ word ∈ ["test", "--quick", "--check"],
          ¬ (AsksForHelp word ∨ AsksForVersion word ∨ word = "help") := by decide
      have mem : word ∈ ["test", "--quick", "--check"] := by simp [split]
      exact absurd (asks.imp_right fun asks => asks.2.imp_right And.left) (silent word mem)
  · have begun : CommandLine.IsWellBegun ["test", "--quick"] :=
      Or.inr ⟨.test, [.quick], ⟨by decide, by decide⟩, rfl⟩
    exact page ["test", "--quick"] "-h" ["--check"] begun (Or.inl (by decide))

end StaticOpus
