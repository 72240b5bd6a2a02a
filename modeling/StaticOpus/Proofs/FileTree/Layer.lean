import StaticOpus.Proofs.FileTree

/-!
# Entries laid over a tree

A layer is a set of entries that are laid over a tree. An operation of the system does the same with
and without a layer, and leaves it lying, if the layer has nothing in the place that the operation is
about and only directories, none of them over a file, on the way to it.

## Implementation notes

Directories of a layer may well lie on the way. They are there already where without the layer they
would have been made, so that the operation comes to the same and the two trees differ as before.
-/

namespace StaticOpus

/-- Entries to lay over a tree. -/
abbrev Layer := Path → Option Entry

namespace FileTree

variable {tree larger made written : FileTree} {path place way : Path} {location : Location}
  {layer : Layer}

/-- Trees with the same entries are the same. -/
theorem ext_entry (same : ∀ path, tree.entry path = larger.entry path) : tree = larger := by
  obtain ⟨entry, parent_dir⟩ := tree
  obtain rfl : entry = larger.entry := funext same
  rfl

/-- Whether one tree is another with a layer over it. -/
def Over (layer : Layer) (tree larger : FileTree) : Prop :=
  ∀ path, larger.entry path = (layer path).or (tree.entry path)

namespace Over

/-- Where a layer has nothing, the tree shows through. -/
theorem entry_eq (lies : Over layer tree larger) (bare : layer path = none) :
    larger.entry path = tree.entry path := by
  rw [lies, bare, Option.none_or]

end Over

/-- The entries that have changed from one tree to another. -/
def changes (before after : FileTree) : Layer := fun path =>
  if after.entry path = before.entry path then none else after.entry path

theorem entry_of_changes {before after : FileTree} {entry : Entry}
    (changed : changes before after path = some entry) :
    after.entry path ≠ before.entry path ∧ after.entry path = some entry := by
  rw [changes] at changed
  split_ifs at changed with same
  exact ⟨same, changed⟩

/-- If nothing has been removed, a tree is an earlier one with the changes laid over it. -/
theorem over_changes {before after : FileTree}
    (kept : ∀ path, after.entry path = none → before.entry path = none) :
    Over (changes before after) before after := by
  intro path
  rw [changes]
  split_ifs with same
  · rw [same, Option.none_or]
  · cases there : after.entry path with
    | none => exact absurd (there.trans (kept path there).symm) same
    | some entry => rfl

/-- Layers that agree wherever both have an entry can be laid in either order. -/
theorem eq_of_over_of_over {other : Layer} {first second : FileTree}
    {firstLarger secondLarger : FileTree}
    (agree : ∀ path entry entry', layer path = some entry → other path = some entry' →
      entry = entry')
    (over_first : Over layer tree first) (second_over_first : Over other first firstLarger)
    (over_second : Over other tree second) (first_over_second : Over layer second secondLarger) :
    firstLarger = secondLarger := by
  apply ext_entry
  intro path
  rw [second_over_first, over_first, first_over_second, over_second]
  cases own : layer path with
  | none => rw [Option.none_or, Option.none_or]
  | some entry =>
      cases others : other path with
      | none => rfl
      | some entry' =>
          rw [agree path entry entry' own others]

/-! ## Ways under a layer -/

/-- Whether a layer has only directories on a way, and none where a file stands. -/
def Eases (layer : Layer) (way : Path) (tree : FileTree) : Prop :=
  ∀ path, path <+: way → ∀ entry, layer path = some entry →
    entry = .dir ∧ ∀ bytes, tree.entry path ≠ some (.file bytes)

namespace Eases

variable (eases : Eases layer way tree)

include eases

theorem of_prefix {start : Path} (on : start <+: way) : Eases layer start tree :=
  fun path below => eases path (below.trans on)

/-- Directories stay directories. -/
theorem or_dir (on : path <+: way) : (layer path).or (some Entry.dir) = some .dir := by
  cases laid : layer path with
  | none => rfl
  | some entry =>
      rw [(eases path on entry laid).1]
      rfl

/-- The files on the way are the same with and without the layer. -/
theorem file_iff (lies : Over layer tree larger) (on : path <+: way) (bytes : List UInt8) :
    larger.entry path = some (.file bytes) ↔ tree.entry path = some (.file bytes) := by
  cases laid : layer path with
  | none => rw [lies.entry_eq laid]
  | some entry =>
      obtain ⟨rfl, free⟩ := eases path on entry laid
      simp [lies path, laid, free bytes]

theorem passable (lies : Over layer tree larger) (clear : tree.Passable way) :
    larger.Passable way := by
  intro path on bytes stands
  exact clear path on bytes ((eases.file_iff lies on bytes).mp stands)

end Eases

/-! ## Making directories and writing under a layer -/

/-- Making directories comes to the same under a layer that eases the way, and leaves it lying. -/
theorem createDirs_over (plain : location.Plain) (lies : Over layer tree larger)
    (eases : Eases layer location.route tree) :
    (larger.createDirs location).1 = (tree.createDirs location).1 ∧
      Over layer (tree.createDirs location).2 (larger.createDirs location).2 := by
  cases faulty : location.fault? with
  | some fault =>
      rw [createDirs_of_fault faulty, createDirs_of_fault faulty]
      exact ⟨rfl, lies⟩
  | none =>
      have fits : Location.fitting location.route <+: location.route :=
        Location.fitting_prefix location.route
      have eased : Eases layer (Location.fitting location.route) tree := eases.of_prefix fits
      by_cases clear : tree.Passable (Location.fitting location.route)
      · obtain ⟨made, created, final, along⟩ := createDirs_of_passable plain faulty clear
        obtain ⟨made', created', final', along'⟩ :=
          createDirs_of_passable plain faulty (eased.passable lies clear)
        rw [created, created']
        refine ⟨rfl, ?_⟩
        intro path
        rw [along'.entry_eq final', along.entry_eq final]
        by_cases on : path <+: Location.fitting location.route
        · rw [if_pos on, if_pos on, eased.or_dir on]
        · rw [if_neg on, if_neg on, lies]
      · obtain ⟨place, bytes, on, stands⟩ := not_passable_iff.mp clear
        have stands' : larger.entry place = some (.file bytes) :=
          (eased.file_iff lies on bytes).mpr stands
        rw [createDirs_of_file plain faulty on stands, createDirs_of_file plain faulty on stands']
        exact ⟨rfl, lies⟩

/-- A write into a directory that is there comes to the same under a layer that has nothing in the
file's place, and leaves it lying. -/
theorem write_over (plain : location.Plain)
    (short : ∀ name ∈ location.route, name.utf8ByteSize ≤ Location.nameLimit)
    (lies : Over layer tree larger) (bare : layer location.route = none)
    (housed : tree.Housed location.route) (housed_larger : larger.Housed location.route)
    (bytes : List UInt8) :
    (∃ fault, tree.write location bytes = .error fault ∧
      larger.write location bytes = .error fault) ∨
    ∃ written written_larger, tree.write location bytes = .ok written ∧
      larger.write location bytes = .ok written_larger ∧ Over layer written written_larger := by
  have same : larger.entry location.route = tree.entry location.route := lies.entry_eq bare
  rw [write_of_housed plain housed short, write_of_housed plain housed_larger short, same]
  cases location.fault? with
  | some fault => exact Or.inl ⟨fault, rfl, rfl⟩
  | none =>
      by_cases occupied : tree.entry location.route = some .dir
      · simp only [if_pos occupied]
        exact Or.inl ⟨.isADirectory, rfl, rfl⟩
      · simp only [if_neg occupied]
        refine Or.inr ⟨_, _, rfl, rfl, ?_⟩
        intro path
        rw [entry_add occupied housed, entry_add (same ▸ occupied) housed_larger]
        by_cases here : path = location.route
        · rw [if_pos here, if_pos here, here, bare, Option.none_or]
        · rw [if_neg here, if_neg here, lies]

end FileTree

end StaticOpus
