import StaticOpus.Proofs.FileTree.Layer
import StaticOpus.Proofs.Header.Refusal

/-!
# Syncs of different directories

Two syncs of different directories do not see each other, also if one directory is in the other, as
long as no header's file of the one stands on the way to the other. In either order each comes to
the same, and the same tree is left, whether they only check or write, and whether they fail or not.

## Implementation notes

What a sync changes is a layer over the tree that it found: its own headers' files, and directories
on its way that were missing. A layer of one sync has nothing in the places of the other's headers,
and only directories, none of them over a file, on the other's way. So the other sync does with it
what it would have done without it, and each of the two final trees is the first with both layers
over it.
-/

namespace StaticOpus.Header

open FileTree

variable {directory : Location} {tree larger after final : FileTree} {header : Header}
  {headers : List Header} {layer : Layer} {check : Bool}

/-! ## What a sync changes, whatever it comes to -/

/-- Whether one tree is another in which some headers have been written to their files and missing
directories on the way have been made. -/
def Touched (directory : Location) (tree final : FileTree) : Prop :=
  ∀ path, final.entry path = tree.entry path ∨
    (∃ header : Header, path = header.place directory ∧
      final.entry path = some (.file header.bytes)) ∨
    (path <+: directory.route ∧ tree.entry path = none ∧ final.entry path = some .dir)

namespace Touched

theorem refl (directory : Location) (tree : FileTree) : Touched directory tree tree := by
  intro path
  exact Or.inl rfl

theorem of_madeAlong (along : MadeAlong directory.route tree after) :
    Touched directory tree after := by
  intro path
  exact (along path).imp_right Or.inr

theorem trans (first : Touched directory tree after) (second : Touched directory after final) :
    Touched directory tree final := by
  intro path
  rcases second path with same | written | ⟨on, missing, made⟩
  · rw [same]
    exact first path
  · exact Or.inr (Or.inl written)
  · -- what was missing between the two can be neither a written file nor a made directory
    rcases first path with before | ⟨header, -, there⟩ | ⟨-, -, there⟩
    · exact Or.inr (Or.inr ⟨on, before ▸ missing, made⟩)
    · simp [there] at missing
    · simp [there] at missing

/-- Nothing is removed. -/
theorem missing_before (touched : Touched directory tree final) (path : Path)
    (missing : final.entry path = none) : tree.entry path = none := by
  rcases touched path with same | ⟨header, -, there⟩ | ⟨-, -, there⟩
  · rwa [← same]
  · simp [there] at missing
  · simp [there] at missing

/-- No file comes to stand on the way. -/
theorem file_before (touched : Touched directory tree final) {path : Path}
    (on : path <+: directory.route) {bytes : List UInt8}
    (stands : final.entry path = some (.file bytes)) : tree.entry path = some (.file bytes) := by
  rcases touched path with same | ⟨header, rfl, -⟩ | ⟨-, -, there⟩
  · rwa [← same]
  · exact absurd on place_not_on_way
  · simp [there] at stands

end Touched

theorem touched_write (plain : directory.Plain) (header : Header) (tree : FileTree) :
    Touched directory tree (header.write directory tree).2 := by
  have first : Touched directory tree (tree.createDirs directory).2 :=
    Touched.of_madeAlong (madeAlong_createDirs plain tree)
  cases created : tree.createDirs directory with
  | mk outcome made =>
      rw [created] at first
      cases outcome with
      | error cause => simpa only [write, created] using first
      | ok _ =>
          simp only [write, created]
          cases filed : made.write (header.location directory) header.bytes with
          | error cause => exact first
          | ok written =>
              apply first.trans
              obtain ⟨-, entry⟩ := entry_of_write (location_plain plain header) filed
              rw [location_route] at entry
              intro path
              by_cases here : path = header.place directory
              · exact Or.inr (Or.inl ⟨header, here, by rw [entry, if_pos here]⟩)
              · exact Or.inl (by rw [entry, if_neg here])

/-- What a sync does about a header that is not up to date. -/
def settle (check : Bool) (directory : Location) (header : Header) (tree : FileTree) :
    Except SyncFault Unit × FileTree :=
  if check then (.ok (), tree) else header.write directory tree

/-- One step of going through the headers, with what the rest comes to named by its parts. -/
theorem syncEach_cons (check : Bool) (directory : Location) (header : Header)
    (rest : List Header) (tree : FileTree) :
    syncEach check directory (header :: rest) tree =
      if header.isCurrent directory tree then syncEach check directory rest tree
      else
        match settle check directory header tree with
        | (.error fault, after) => (.error fault, after)
        | (.ok (), after) =>
          ((syncEach check directory rest after).1.map (header :: ·),
            (syncEach check directory rest after).2) := by
  by_cases current : header.isCurrent directory tree = true
  · rw [syncEach, if_pos current, if_pos current]
  · rw [syncEach, if_neg current, if_neg current, ← settle]
    rcases settle check directory header tree with ⟨_ | _, after⟩
    · rfl
    · dsimp only
      rcases syncEach check directory rest after with ⟨_ | _, last⟩
      · rfl
      · rfl

theorem touched_settle (plain : directory.Plain) (check : Bool) (header : Header)
    (tree : FileTree) : Touched directory tree (settle check directory header tree).2 := by
  cases check with
  | true => exact Touched.refl directory tree
  | false => exact touched_write plain header tree

theorem touched_syncEach (plain : directory.Plain) (check : Bool) (headers : List Header)
    (tree : FileTree) : Touched directory tree (syncEach check directory headers tree).2 := by
  induction headers generalizing tree with
  | nil => exact Touched.refl directory tree
  | cons header rest ih =>
      rw [syncEach_cons]
      split_ifs
      · exact ih tree
      · have step := touched_settle plain check header tree
        cases settled : settle check directory header tree with
        | mk outcome after =>
            rw [settled] at step
            cases outcome with
            | error fault => exact step
            | ok _ => exact step.trans (ih after)

/-! ## A sync under a layer -/

/-- Whether a layer has nothing in the places of a directory's headers and eases the way to it. -/
structure Spares (layer : Layer) (directory : Location) (tree : FileTree) : Prop where
  bare : ∀ header : Header, layer (header.place directory) = none
  eases : Eases layer directory.route tree

theorem Spares.of_touched (spares : Spares layer directory tree)
    (touched : Touched directory tree after) : Spares layer directory after where
  bare := spares.bare
  eases := by
    intro path on entry laid
    obtain ⟨dir, free⟩ := spares.eases path on entry laid
    exact ⟨dir, fun bytes stands => free bytes (touched.file_before on stands)⟩

/-- The file of a header in a directory that the system takes has no name that is too long. -/
theorem short_location (legal : directory.Legal) (header : Header) :
    ∀ name ∈ (header.location directory).route, name.utf8ByteSize ≤ Location.nameLimit := by
  intro name mem
  rcases List.mem_append.mp mem with above | last
  · exact legal.2 name above
  · rw [List.mem_singleton.mp last]
    cases header <;> decide

section Over

variable (plain : directory.Plain) (spares : Spares layer directory tree)
  (lies : Over layer tree larger)

include plain spares lies

theorem isCurrent_over (header : Header) :
    header.isCurrent directory larger = header.isCurrent directory tree := by
  rw [Bool.eq_iff_iff, isCurrent_iff plain, isCurrent_iff plain,
    lies.entry_eq (spares.bare header)]

/-- A write comes to the same under a layer that spares its directory, and leaves it lying. -/
theorem write_over (header : Header) :
    (header.write directory larger).1 = (header.write directory tree).1 ∧
      Over layer (header.write directory tree).2 (header.write directory larger).2 := by
  obtain ⟨same, still_over⟩ := createDirs_over plain lies spares.eases
  cases created : tree.createDirs directory with
  | mk outcome made =>
      cases created' : larger.createDirs directory with
      | mk outcome' made' =>
          rw [created, created'] at same still_over
          obtain rfl : outcome' = outcome := same
          cases outcome' with
          | error cause =>
              simp only [write, created, created']
              exact ⟨trivial, still_over⟩
          | ok _ =>
              obtain ⟨there, along⟩ := madeAlong_of_createDirs plain created
              obtain ⟨there', -⟩ := madeAlong_of_createDirs plain created'
              have short := short_location (legal_of_createDirs plain created) header
              rcases FileTree.write_over (location_plain plain header) short still_over
                (spares.bare header) (housed_concat.mpr there) (housed_concat.mpr there')
                header.bytes with
                ⟨fault, refused, refused'⟩ | ⟨written, written', filed, filed', lies⟩
              · simp only [write, created, created', refused, refused']
                exact ⟨trivial, still_over⟩
              · simp only [write, created, created', filed, filed']
                exact ⟨trivial, lies⟩

theorem settle_over (check : Bool) (header : Header) :
    (settle check directory header larger).1 = (settle check directory header tree).1 ∧
      Over layer (settle check directory header tree).2
        (settle check directory header larger).2 := by
  cases check with
  | true => exact ⟨rfl, lies⟩
  | false => exact write_over plain spares lies header

end Over

/-- Going through headers comes to the same under a layer that spares their directory, and leaves it
lying. -/
theorem syncEach_over (plain : directory.Plain) (spares : Spares layer directory tree)
    (lies : Over layer tree larger) (check : Bool) (headers : List Header) :
    (syncEach check directory headers larger).1 = (syncEach check directory headers tree).1 ∧
      Over layer (syncEach check directory headers tree).2
        (syncEach check directory headers larger).2 := by
  induction headers generalizing tree larger with
  | nil => exact ⟨rfl, lies⟩
  | cons header rest ih =>
      rw [syncEach_cons, syncEach_cons, isCurrent_over plain spares lies]
      split_ifs
      · exact ih spares lies
      · obtain ⟨same, still_over⟩ := settle_over plain spares lies check header
        have step := touched_settle plain check header tree
        cases settled : settle check directory header tree with
        | mk outcome after =>
            cases settled' : settle check directory header larger with
            | mk outcome' after' =>
                rw [settled, settled'] at same still_over
                rw [settled] at step
                obtain rfl : outcome' = outcome := same
                cases outcome' with
                | error fault => exact ⟨rfl, still_over⟩
                | ok _ =>
                    obtain ⟨rest_same, rest_over⟩ := ih (spares.of_touched step) still_over
                    exact ⟨congrArg (Except.map (header :: ·)) rest_same, rest_over⟩

/-! ## Two syncs -/

/-- The changes of one sync spare the directory of another. -/
theorem spares_changes {first second : Location} (different : first.route ≠ second.route)
    (first_aside : ∀ header : Header, ¬ header.place first <+: second.route)
    (second_aside : ∀ header : Header, ¬ header.place second <+: first.route)
    (touched : Touched first tree after) : Spares (changes tree after) second tree where
  bare := by
    intro header
    rw [Option.eq_none_iff_forall_ne_some]
    intro entry changed
    obtain ⟨differs, -⟩ := entry_of_changes changed
    rcases (touched _).resolve_left differs with ⟨other, there, -⟩ | ⟨on, -, -⟩
    · apply different
      exact (List.append_inj_left' there rfl).symm
    · exact second_aside header on
  eases := by
    intro path on entry changed
    obtain ⟨differs, stands⟩ := entry_of_changes changed
    rcases (touched path).resolve_left differs with ⟨other, rfl, -⟩ | ⟨-, missing, made⟩
    · exact absurd on (first_aside other)
    · rw [made] at stands
      refine ⟨(Option.some.inj stands).symm, ?_⟩
      simp [missing]

/-- Syncs of different directories commute, if no header's file of either stands on the way to the
other. In either order each sync comes to the same, be it done or refused, and the same tree is
left. -/
theorem syncs_commute {first second : Location} (first_plain : first.Plain)
    (second_plain : second.Plain) (different : first.route ≠ second.route)
    (first_aside : ∀ header : Header, ¬ header.place first <+: second.route)
    (second_aside : ∀ header : Header, ¬ header.place second <+: first.route)
    (check_first check_second : Bool) (tree : FileTree) :
    let first_alone := sync check_first first tree
    let second_alone := sync check_second second tree
    let first_after := sync check_first first second_alone.2
    let second_after := sync check_second second first_alone.2
    first_after.1 = first_alone.1 ∧ second_after.1 = second_alone.1 ∧
      first_after.2 = second_after.2 := by
  intro first_alone second_alone first_after second_after
  have first_touched : Touched first tree first_alone.2 :=
    touched_syncEach first_plain check_first all tree
  have second_touched : Touched second tree second_alone.2 :=
    touched_syncEach second_plain check_second all tree
  have over_first := over_changes first_touched.missing_before
  have over_second := over_changes second_touched.missing_before
  have spares_first := spares_changes different.symm second_aside first_aside second_touched
  have spares_second := spares_changes different first_aside second_aside first_touched
  obtain ⟨first_same, first_over⟩ :=
    syncEach_over first_plain spares_first over_second check_first all
  obtain ⟨second_same, second_over⟩ :=
    syncEach_over second_plain spares_second over_first check_second all
  refine ⟨first_same, second_same, ?_⟩
  apply eq_of_over_of_over _ over_first first_over over_second second_over
  -- what both have changed is a directory that each of them has made
  intro path entry entry' changed changed'
  obtain ⟨differs, stands⟩ := entry_of_changes changed'
  rcases (second_touched path).resolve_left differs with ⟨header, rfl, -⟩ | ⟨on, -, made⟩
  · rw [spares_second.bare header] at changed
    cases changed
  · rw [(spares_second.eases path on entry changed).1]
    rw [made] at stands
    exact Option.some.inj stands

theorem syncs_commute_around_failure :
    let outer : Location := ⟨["include"], "include"⟩
    let inner : Location := ⟨["include", "nested"], "include/nested"⟩
    (∃ fault, (sync false outer occupied).1 = .error fault ∧
      (sync false outer (sync false inner occupied).2).1 = .error fault) ∧
    (sync false outer (sync false inner occupied).2).2 =
      (sync false inner (sync false outer occupied).2).2 := by
  intro outer inner
  obtain ⟨outer_same, -, tree_same⟩ := syncs_commute (by decide : outer.Plain)
    (by decide : inner.Plain) (by decide) (fun header => by cases header <;> decide)
    (fun header => by cases header <;> decide) false false occupied
  refine ⟨?_, tree_same⟩
  cases outcome : (sync false outer occupied).1 with
  | error fault => exact ⟨fault, rfl, outer_same.trans outcome⟩
  | ok stale =>
      have done : sync false outer occupied = (.ok stale, _) := Prod.ext outcome rfl
      have in_place : occupied.entry (customSupport.place outer) = some .dir := by
        rw [occupied_entry]
        rfl
      exact absurd in_place
        (vacant_of_syncEach (by decide) (by decide) done customSupport customSupport.mem_all)

end StaticOpus.Header
