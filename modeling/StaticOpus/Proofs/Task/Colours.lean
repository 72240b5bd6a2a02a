import StaticOpus.Proofs.Task.Chronicle

/-!
# Colours change looks only

A run with colours and one without come to the same: the same result, the same calls and the same
files. What a stream receives with colours is, without its style sequences, what it receives without
them. No print leaves a style on, and the outputs of a failed call are passed on in no style at all.

## Implementation notes

A workspace keeps lines and not what shows them, so a run cannot depend on colours. What is to be
shown is that the characters of the lines, which do depend on them, come to the same for a reader.
-/

namespace StaticOpus

open Terminal

/-- What a run comes to for whoever started it: its result, the calls that it made, the files after
it, and what it printed, print by print. -/
structure Session (α : Type) where
  result : Except Failure α
  calls : List (List String)
  tree : FileTree
  prints : List (Channel × List Char)

namespace Session

variable {α : Type}

/-- What a run comes to, with colours or without. -/
def ofOutcome (coloured : Bool) (outcome : Except Failure α × Workspace) : Session α where
  result := outcome.1
  calls := outcome.2.calls
  tree := outcome.2.tree
  prints := outcome.2.lines.map fun line => (line.channel, line.render coloured)

end Session

/-- A call from a workspace on, with colours or without. -/
def Invocation.session (invocation : Invocation) (before : Workspace) (coloured : Bool) :
    Session Reply :=
  .ofOutcome coloured (before.invoke invocation)

/-- A command from a workspace on, with colours or without. -/
def Command.session (command : Command) (library : Option (List UInt8)) (before : Workspace)
    (coloured : Bool) : Session Unit :=
  .ofOutcome coloured ((command.plan library).run before)

namespace Session

variable {α : Type}

/-- What a stream received. -/
def received (session : Session α) (channel : Channel) : String :=
  String.ofList ((session.prints.filter (·.1 = channel)).flatMap (·.2))

theorem received_ofOutcome (coloured : Bool) (outcome : Except Failure α × Workspace)
    (channel : Channel) :
    (ofOutcome coloured outcome).received channel = printed coloured channel outcome.2.lines := by
  rw [received, ofOutcome, List.filter_map, List.flatMap_map, printed]
  rfl

/-- A session with colours differs from one without in looks only. -/
structure DiffersInLooks (cargo : Cargo) (coloured plain : Session α) : Prop where
  result : coloured.result = plain.result
  calls : coloured.calls = plain.calls
  tree : coloured.tree = plain.tree
  streams : ∀ channel, unstyled (coloured.received channel) = plain.received channel
  /-- No print leaves a style on. -/
  closed : ∀ print ∈ coloured.prints, (display [] print.2).2 = []
  /-- If a call failed, it was the last one, and its outputs are displayed in no style. -/
  echo : ∀ title, coloured.result = .error (.step title) →
    ∃ replies earlier reply rest, cargo = some replies ∧ coloured.calls.length = earlier + 1 ∧
      replies.getD earlier {} = reply ∧ reply.code ≠ 0 ∧
      (display [] (coloured.received .errors).toList).1 =
        glyphs ["1;31"] ("  ✗ " ++ title ++ " failed") ++
          glyphs [] ("\n\n" ++ Text.Utf8.lossyString reply.stdout ++ "\n" ++
            Text.Utf8.lossyString reply.stderr ++ "\n") ++ rest

end Session

/-- What is displayed of the lines after a failed call: its title in bold red, its outputs in no
style. -/
theorem glyphs_failedLines (invocation : Invocation) (reply : Reply) :
    (invocation.failedLines reply).flatMap Line.glyphs =
      glyphs ["1;31"] ("  ✗ " ++ invocation.title ++ " failed") ++
        glyphs [] ("\n\n" ++ Text.Utf8.lossyString reply.stdout ++ "\n" ++
          Text.Utf8.lossyString reply.stderr ++ "\n") := by
  have failed : looks.failed.shown = ["1;31"] := by decide
  have plain : TextStyle.plain.shown = [] := by decide
  have gap : glyphs [] "\n\n" = glyphs [] "\n" ++ (glyphs [] "" ++ glyphs [] "\n") := by decide
  simp only [Invocation.failedLines, List.flatMap_cons, List.flatMap_nil, Line.glyphs_errors,
    failed, plain, glyphs_append, gap, List.append_assoc, List.append_nil]

/-- So a run that nothing was printed before differs in looks only. -/
theorem Chronicle.differsInLooks {α : Type} {before : Workspace}
    {outcome : Except Failure α × Workspace} {made : List (List String)} {lines : List Line}
    (told : Chronicle before outcome made lines) (uncalled : before.calls = [])
    (unprinted : before.lines = []) :
    Session.DiffersInLooks before.cargo (.ofOutcome true outcome) (.ofOutcome false outcome) := by
  have all_lines : outcome.2.lines = lines := by rw [told.lines_eq, unprinted, List.nil_append]
  have all_calls : outcome.2.calls = made := by rw [told.calls_eq, uncalled, List.nil_append]
  refine ⟨rfl, rfl, rfl, ?_, ?_, ?_⟩
  · intro channel
    rw [Session.received_ofOutcome, Session.received_ofOutcome, all_lines]
    exact unstyled_printed told.literal
  · intro print mem
    obtain ⟨line, printed, rfl⟩ := List.mem_map.mp mem
    have shown := display_line (told.literal line (all_lines ▸ printed)) []
    rw [List.append_nil] at shown
    rw [shown]
    rfl
  · intro title failed
    obtain ⟨replies, earlier, reply, ready, count, last, wrong, invocation, titled, hint, errors⟩ :=
      told.told title failed
    refine ⟨replies, earlier, reply, hint.flatMap Line.glyphs, ready, ?_, last, wrong, ?_⟩
    · rw [Session.ofOutcome, all_calls, count]
    · have error_literal : ∀ line ∈ errorLines lines, line.IsLiteral :=
        fun line mem => told.literal line (List.mem_filter.mp mem).1
      calc
        (display [] ((Session.ofOutcome true outcome).received .errors).toList).1
            = (errorLines lines).flatMap Line.glyphs := by
          rw [Session.received_ofOutcome, all_lines, printed, String.toList_ofList]
          exact congrArg Prod.fst (display_lines error_literal)
        _ = (invocation.failedLines reply).flatMap Line.glyphs ++ hint.flatMap Line.glyphs := by
          rw [errors, List.flatMap_append]
        _ = _ := by rw [glyphs_failedLines, titled]

/-- Colours change no more than looks, of a command as of a single call. -/
theorem colours_change_looks_only (cargo : Cargo) (tree : FileTree) (headers : Location)
    (literal : cargo.IsLiteral) :
    (∀ (command : Command) (library : Option (List UInt8)),
      let session := command.session library { cargo, tree, headers }
      Session.DiffersInLooks cargo (session true) (session false)) ∧
    ∀ invocation : Invocation, invocation.IsLiteral →
      let session := invocation.session { cargo, tree, headers }
      Session.DiffersInLooks cargo (session true) (session false) := by
  have plain : ({ cargo, tree, headers } : Workspace).cargo.IsLiteral := literal
  constructor
  · intro command library
    obtain ⟨made, lines, told⟩ := Plan.exists_chronicle (command.plan_isClean library) plain
    exact told.differsInLooks rfl rfl
  · intro invocation clean
    obtain ⟨made, lines, told⟩ := Workspace.exists_chronicle clean plain
    exact told.differsInLooks rfl rfl

/-- Both outputs of a call that failed follow the red title, plain. -/
theorem colours_change_looks_only_of_failed_call :
    let cargo : Cargo := some [{ stdout := [0x6F, 0x6B], stderr := [0x6E, 0x6F], code := 101 }]
    let before : Workspace := { cargo, tree := .nothing, headers := ⟨[], "include"⟩ }
    let invocation : Invocation := ⟨"Checking format", ["fmt"], none⟩
    let command : Command := .test true false
    cargo.IsLiteral ∧ invocation.IsLiteral ∧
      (invocation.session before true).received .errors =
        "\x1b[1;31m  ✗ Checking format failed\x1b[0m\n\nok\nno\n" ∧
      (invocation.session before false).received .errors =
        "  ✗ Checking format failed\n\nok\nno\n" ∧
      Session.DiffersInLooks cargo (invocation.session before true)
        (invocation.session before false) ∧
      Session.DiffersInLooks cargo (command.session none before true)
        (command.session none before false) := by
  intro cargo before invocation command
  have literal : cargo.IsLiteral := by
    intro replies ready reply mem
    obtain rfl := Option.some.inj ready
    obtain rfl := List.mem_singleton.mp mem
    constructor <;> decide
  have clean : invocation.IsLiteral := by decide
  have looks := colours_change_looks_only cargo .nothing ⟨[], "include"⟩ literal
  exact ⟨literal, clean, by decide, by decide, looks.2 invocation clean, looks.1 command none⟩

end StaticOpus
