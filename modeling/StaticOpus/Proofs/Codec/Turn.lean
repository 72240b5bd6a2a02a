import StaticOpus.Proofs.Codec.SetUp

/-!
# Turns of a session

A turn is a step as it took place: the link before it, its report, and the link after it. The turns
of a session carry everything that its reports tell, and the moment of each. What every step keeps
holds before and after each turn, so a statement about all turns comes down to one step.
-/

namespace StaticOpus.Link

/-- A step of a session as it took place. -/
structure Turn where
  before : Link
  step : Step
  report : Report
  after : Link

namespace Turn

/-- The turn that takes a step on a link. -/
def take (build : Build) (step : Step) (link : Link) : Turn :=
  let (report, after) := Link.step build step link
  ⟨link, step, report, after⟩

/-- The calls of a turn with the codec's responses to them. -/
def exchanges (turn : Turn) : List Codec.Exchange :=
  (turn.before.codec.converse turn.report.calls).1

end Turn

/-- The turns of a session, in order. -/
def turns (build : Build) : List Step → Link → List Turn
  | [], _ => []
  | first :: rest, link =>
    let turn := Turn.take build first link
    turn :: turns build rest turn.after

/-- The turns of a session are reported by the session, in the same order. -/
theorem turns_reports (build : Build) (steps : List Step) (link : Link) :
    (turns build steps link).map (·.report) = (run build steps link).1 := by
  induction steps generalizing link with
  | nil => rfl
  | cons first rest ih => exact congrArg (List.cons _) (ih _)

/-- The turns of a session take its steps, in the same order. -/
theorem turns_steps (build : Build) (steps : List Step) (link : Link) :
    (turns build steps link).map (·.step) = steps := by
  induction steps generalizing link with
  | nil => rfl
  | cons first rest ih => exact congrArg (List.cons first) (ih _)

section Invariants

variable {build : Build} {Inv : Link → Prop}

/-- Every turn of a session takes some step where everything holds that every step keeps. -/
theorem exists_take_of_mem_turns
    (kept : ∀ step link, Inv link → Inv (Link.step build step link).2)
    {steps : List Step} {link : Link} (start : Inv link) {turn : Turn}
    (h : turn ∈ turns build steps link) :
    ∃ step before, Inv before ∧ turn = Turn.take build step before := by
  induction steps generalizing link with
  | nil => simp [turns] at h
  | cons first rest ih =>
      rcases List.mem_cons.mp h with rfl | later
      · exact ⟨first, link, start, rfl⟩
      · exact ih (kept first link start) later

end Invariants

/-- The link on which a step begins: nothing of the steps before it is reported again. -/
def cleared (link : Link) : Link := { link with calls := [], log := [] }

section Steps

variable (build : Build) (link : Link)

theorem step_verify :
    Link.step build .verify link =
      (⟨.checked (link.cleared.verify build).1, (link.cleared.verify build).2.calls,
        (link.cleared.verify build).2.log⟩, (link.cleared.verify build).2) := rfl

theorem step_init (rate : Int32) (mode : Mode) :
    Link.step build (.init rate mode) link =
      (⟨.checked (link.cleared.init build rate mode).1, (link.cleared.init build rate mode).2.calls,
        (link.cleared.init build rate mode).2.log⟩, (link.cleared.init build rate mode).2) := rfl

theorem step_read (offset length : Nat) :
    Link.step build (.read offset length) link =
      (⟨match link.storage.read? offset length with
        | some bytes => .bytes bytes
        | none => .outOfRange, [], []⟩, link.cleared) := by
  simp only [Link.step, answer]
  cases link.storage.read? offset length <;> rfl

end Steps

/-- Whatever calls lead from a cleared link to another, that one has noted just them. -/
theorem Conversed.calls_of_cleared {link after : Link} {calls : List Call}
    (h : Conversed link.cleared calls after) : after.calls = calls := h.calls_eq

/-- A step that leaves the codec in place has asked it just what the step reports. -/
theorem step_conversed {step : Step} (quiet : ∀ change, step ≠ .change change) (build : Build)
    (link : Link) :
    Conversed link.cleared (Link.step build step link).1.calls (Link.step build step link).2 := by
  cases step with
  | change change => exact absurd rfl (quiet change)
  | version => exact link.cleared.conversed_version
  | explain code => exact link.cleared.conversed_explain code
  | size mode => exact link.cleared.conversed_askSize mode
  | verify =>
      obtain ⟨-, asked, -, h⟩ := verify_conversed build link.cleared
      rw [step_verify, h.calls_of_cleared]
      exact h
  | init rate mode =>
      have h := (init_setUp build rate mode link.cleared).conversed
      rw [step_init, h.calls_of_cleared]
      exact h
  | renew => exact ⟨rfl, rfl⟩
  | read offset length =>
      rw [step_read]
      exact .refl link.cleared

/-- The storage after a step, told from the step and its answer. -/
def storageAfter (build : Build) (step : Step) (answer : Answer) (storage : Storage) : Storage :=
  match step, answer with
  | .renew, _ => .zeroed build.selected
  | .init rate mode, .checked result => setUpStorage rate mode storage result
  | _, _ => storage

theorem step_storage (build : Build) (step : Step) (link : Link) :
    (Link.step build step link).2.storage =
      storageAfter build step (Link.step build step link).1.answer link.storage := by
  cases step with
  | change change => rfl
  | version => rfl
  | explain code => rfl
  | size mode => rfl
  | verify => exact (verify_conversed build link.cleared).1
  | init rate mode =>
      exact (init_setUp build rate mode link.cleared).storage_eq
  | renew => rfl
  | read offset length =>
      rw [step_read]
      rfl

/-- A link of a build keeps the storage that the build reserves, whatever is done with it. -/
theorem step_storage_mode (build : Build) (step : Step) (link : Link)
    (h : link.storage.mode = build.selected) :
    (Link.step build step link).2.storage.mode = build.selected := by
  rw [step_storage]
  unfold storageAfter
  split
  · rfl
  · rwa [setUpStorage_mode]
  · exact h

end StaticOpus.Link
