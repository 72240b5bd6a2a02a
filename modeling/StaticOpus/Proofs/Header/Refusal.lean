import StaticOpus.Proofs.Header.Converge

/-!
# A sync that is refused

A sync fails exactly if a file stands on the way to its directory or a directory in the place of a
header's file. It says which of the two it met, and it leaves a tree in which the headers are in
place up to the one that it failed on, while that one and those after it are untouched.

## Implementation notes

A file on the way is met at the first header, since no header can be in place below it, so nothing
has been done by then. A directory in a header's place is met only when that header's turn comes,
and the headers before it have been brought up to date by a sync of their own that came to its end.
-/

namespace StaticOpus.Header

open FileTree

variable {directory : Location} {tree after final : FileTree} {header : Header}
  {headers stale : List Header} {fault : SyncFault}

/-! ## A file on the way to the directory -/

section Blocked

variable {place : Path} {bytes : List UInt8}

theorem dir_of_above_place (on : place <+: directory.route)
    (stands : tree.entry (header.place directory) ≠ none) : tree.entry place = some .dir := by
  obtain ⟨back, route⟩ := on
  have below : header.place directory = place ++ (back ++ [header.fileName]) := by
    rw [Header.place, ← route, List.append_assoc]
  rw [below] at stands
  apply dir_of_below stands
  simp

theorem isCurrent_of_file (plain : directory.Plain) (on : place <+: directory.route)
    (stands : tree.entry place = some (.file bytes)) (header : Header) :
    header.isCurrent directory tree = false := by
  rw [Bool.eq_false_iff]
  intro current
  obtain ⟨-, held⟩ := (isCurrent_iff plain).mp current
  have there := dir_of_above_place on (held ▸ Option.some_ne_none _)
  simp [stands] at there

/-- Where a file stands on the way to the directory, a sync fails at the first header and changes
nothing. -/
theorem sync_of_file (plain : directory.Plain) (legal : directory.Legal)
    (on : place <+: directory.route) (stands : tree.entry place = some (.file bytes)) :
    sync false directory tree =
      (.error (.create directory.text
        (if place = directory.route then .fileExists else .notADirectory)), tree) := by
  simp [sync, all, syncEach, isCurrent_of_file plain on stands, write,
    createDirs_of_file plain legal.1 (legal.fitting_route.symm ▸ on) stands]

end Blocked

/-! ## A directory in a header's place -/

/-- A write that is done has found no directory in its file's place. -/
theorem vacant_of_write (plain : directory.Plain)
    (done : header.write directory tree = (.ok (), after)) :
    tree.entry (header.place directory) ≠ some .dir := by
  obtain ⟨made, created, filed⟩ := write_done done
  obtain ⟨-, along⟩ := madeAlong_of_createDirs plain created
  have vacant := ne_dir_of_write (location_plain plain header) filed
  rwa [location_route, Updated.entry_place_of_madeAlong along] at vacant

/-- A sync that comes to its end has found no directory in the place of any header's file. -/
theorem vacant_of_syncEach (plain : directory.Plain) (distinct : headers.Nodup)
    (done : syncEach false directory headers tree = (.ok stale, final)) :
    ∀ header ∈ headers, tree.entry (header.place directory) ≠ some .dir := by
  induction headers generalizing tree stale with
  | nil => simp
  | cons header rest ih =>
      obtain ⟨fresh, distinct_rest⟩ := List.nodup_cons.mp distinct
      rw [List.forall_mem_cons]
      rcases syncEach_cons_done done with
        ⟨current, onward⟩ | ⟨-, after, later, written, onward, rfl⟩
      · refine ⟨?_, ih distinct_rest onward⟩
        simp [((isCurrent_iff plain).mp current).2]
      · refine ⟨vacant_of_write plain written, ?_⟩
        intro other mem
        -- the write before its turn has left the other header's place as it was
        rw [← (updated_of_write plain written).2.entry_place (not_mem_singleton fresh mem)]
        exact ih distinct_rest onward other mem

/-- With the way to the directory free, a write is refused only for a directory in its file's place,
and has made the directory by then. -/
theorem write_refused (plain : directory.Plain) (legal : (header.location directory).Legal)
    (clear : tree.Passable directory.route)
    (refused : header.write directory tree = (.error fault, final)) :
    tree.entry (header.place directory) = some .dir ∧
      fault = .write (header.location directory).text .isADirectory ∧
      MadeAlong directory.route tree final := by
  obtain ⟨made, created⟩ := exists_createDirs plain legal.of_child clear
  obtain ⟨there, along⟩ := madeAlong_of_createDirs plain created
  simp only [write, created] at refused
  cases filed : made.write (header.location directory) header.bytes with
  | ok written => simp [filed] at refused
  | error cause =>
      obtain ⟨rfl, rfl⟩ : .write (header.location directory).text cause = fault ∧ made = final := by
        simpa [filed] using refused
      obtain ⟨occupied, rfl⟩ :=
        fault_of_write (location_plain plain header) legal (housed_concat.mpr there) filed
      rw [location_route, Updated.entry_place_of_madeAlong along] at occupied
      exact ⟨occupied, rfl, along⟩

/-- Going through the headers fails at one of them: those before it are gone through, and its own
write is refused. -/
theorem syncEach_refused
    (failed : syncEach false directory headers tree = (.error fault, final)) :
    ∃ earlier stop later stale middle, headers = earlier ++ stop :: later ∧
      syncEach false directory earlier tree = (.ok stale, middle) ∧
      stop.write directory middle = (.error fault, final) := by
  induction headers generalizing tree with
  | nil => simp [syncEach] at failed
  | cons header rest ih =>
      rw [syncEach] at failed
      by_cases current : header.isCurrent directory tree = true
      · rw [if_pos current] at failed
        obtain ⟨earlier, stop, later, stale, middle, rfl, through, refused⟩ := ih failed
        refine ⟨header :: earlier, stop, later, stale, middle, rfl, ?_, refused⟩
        rw [syncEach, if_pos current, through]
      · simp only [if_neg current, Bool.false_eq_true, if_false] at failed
        cases written : header.write directory tree with
        | mk outcome after =>
            cases outcome with
            | error own =>
                obtain ⟨rfl, rfl⟩ : own = fault ∧ after = final := by simpa [written] using failed
                exact ⟨[], header, rest, [], tree, rfl, rfl, written⟩
            | ok _ =>
                simp only [written] at failed
                cases onward : syncEach false directory rest after with
                | mk outcome last =>
                    cases outcome with
                    | ok stale => simp [onward] at failed
                    | error other =>
                        obtain ⟨rfl, rfl⟩ : other = fault ∧ last = final := by
                          simpa [onward] using failed
                        obtain ⟨earlier, stop, later, stale, middle, rfl, through, refused⟩ :=
                          ih onward
                        refine ⟨header :: earlier, stop, later, header :: stale, middle, rfl, ?_,
                          refused⟩
                        simp [syncEach, current, written, through]

/-! ## What a failed sync leaves -/

/-- What a sync leaves that has stopped at a header. The headers before it are in place, its own
file and those of the headers after it are as they were, and elsewhere directories that were missing
on the way may have been made, unless a file stands on that way. -/
structure Stopped (directory : Location) (tree : FileTree) (earlier : List Header) (stop : Header)
    (later : List Header) (final : FileTree) : Prop where
  order : all = earlier ++ stop :: later
  written : ∀ header ∈ earlier,
    final.entry (header.place directory) = some (.file header.bytes)
  kept : ∀ header ∈ stop :: later,
    final.entry (header.place directory) = tree.entry (header.place directory)
  elsewhere : ∀ path, (∀ header : Header, path ≠ header.place directory) →
    final.entry path = tree.entry path ∨
      (tree.Passable directory.route ∧ path <+: directory.route ∧ tree.entry path = none ∧
        final.entry path = some .dir)

theorem stopped_at_first (directory : Location) (tree : FileTree) :
    Stopped directory tree [] decoder [customSupport] tree where
  order := rfl
  written := by simp
  kept := by simp
  elsewhere := by
    intro path _
    exact Or.inl rfl

/-- With the way to the directory free, a sync fails only at the first header in whose place a
directory stands. -/
theorem stopped_of_passable (plain : directory.Plain)
    (legal : ∀ header : Header, (header.location directory).Legal)
    (clear : tree.Passable directory.route)
    (failed : sync false directory tree = (.error fault, final)) :
    ∃ earlier stop later, Stopped directory tree earlier stop later final ∧
      tree.entry (stop.place directory) = some .dir ∧
      (∀ header ∈ earlier, tree.entry (header.place directory) ≠ some .dir) ∧
      fault = .write (stop.location directory).text .isADirectory := by
  obtain ⟨earlier, stop, later, stale, middle, order, through, refused⟩ := syncEach_refused failed
  have distinct : (earlier ++ stop :: later).Nodup := by
    rw [← order]
    decide
  obtain ⟨distinct_earlier, -, apart⟩ := List.nodup_append.mp distinct
  obtain ⟨found, all_current, updated⟩ := updated_of_syncEach plain distinct_earlier through
  obtain ⟨occupied, rfl, along⟩ := write_refused plain (legal stop) (updated.passable clear) refused
  have after_stop : ∀ header ∈ stop :: later, header ∉ stale := by
    intro header mem mem_stale
    rw [found] at mem_stale
    exact apart header (List.mem_filter.mp mem_stale).1 header mem rfl
  -- the refused write has touched no header's file, so each is as the headers before left it
  have untouched := Updated.entry_place_of_madeAlong along
  refine ⟨earlier, stop, later, ⟨order, ?_, ?_, ?_⟩, ?_, ?_, rfl⟩
  · intro header mem
    rw [untouched]
    exact ((isCurrent_iff plain).mp (all_current header mem)).2
  · intro header mem
    rw [untouched, updated.entry_place (after_stop header mem)]
  · intro path other
    rcases (updated.trans (Updated.of_madeAlong along)) path with same | ⟨header, -, there⟩ | made
    · exact Or.inl same
    · exact absurd there (other header)
    · exact Or.inr ⟨clear, made⟩
  · rwa [← updated.entry_place (after_stop stop List.mem_cons_self)]
  · exact vacant_of_syncEach plain distinct_earlier through

/-! ## When and how a sync fails -/

/-- If the system takes the routes to the headers, a sync fails exactly if its directory or
something above it is a file, or a directory stands in the place of a header's file. Its messages
tell which: the directory could not be made, because it is a file or because something above it is
one, or the first header with a directory in its place could not be written. What it leaves is in
every case that of a sync stopped at that header. -/
theorem sync_fails_exactly (plain : directory.Plain)
    (legal : ∀ header : Header, (header.location directory).Legal) (tree : FileTree) :
    ((∃ fault, (sync false directory tree).1 = .error fault) ↔
      (∃ place bytes, place <+: directory.route ∧ tree.entry place = some (.file bytes)) ∨
        ∃ header : Header, tree.entry (header.place directory) = some .dir) ∧
    ∀ fault final, sync false directory tree = (.error fault, final) →
      ∃ earlier stop later, Stopped directory tree earlier stop later final ∧
        (∀ bytes, tree.entry directory.route = some (.file bytes) →
          earlier = [] ∧ fault.messages =
            ["Failed to create " ++ directory.text, "File exists (os error 17)"]) ∧
        (∀ place bytes, place <+: directory.route → place ≠ directory.route →
          tree.entry place = some (.file bytes) →
            earlier = [] ∧ fault.messages =
              ["Failed to create " ++ directory.text, "Not a directory (os error 20)"]) ∧
        ((∃ header : Header, tree.entry (header.place directory) = some .dir) →
          tree.entry (stop.place directory) = some .dir ∧
          (∀ header ∈ earlier, tree.entry (header.place directory) ≠ some .dir) ∧
          fault.messages = ["Failed to write " ++ (stop.location directory).text,
            "Is a directory (os error 21)"]) := by
  have directory_legal : directory.Legal := (legal decoder).of_child
  constructor
  · constructor
    · rintro ⟨fault, failed⟩
      by_cases clear : tree.Passable directory.route
      · obtain ⟨-, stop, -, -, occupied, -⟩ :=
          stopped_of_passable plain legal clear (Prod.ext failed rfl)
        exact Or.inr ⟨stop, occupied⟩
      · exact Or.inl (not_passable_iff.mp clear)
    · rintro (⟨place, bytes, on, stands⟩ | ⟨header, occupied⟩)
      · exact ⟨_, congrArg Prod.fst (sync_of_file plain directory_legal on stands)⟩
      · cases outcome : (sync false directory tree).1 with
        | error fault => exact ⟨fault, rfl⟩
        | ok stale =>
            have done : sync false directory tree = (.ok stale, _) := Prod.ext outcome rfl
            exact absurd occupied (vacant_of_syncEach plain (by decide) done header header.mem_all)
  · intro fault final failed
    by_cases clear : tree.Passable directory.route
    · obtain ⟨earlier, stop, later, stopped, occupied, vacant, rfl⟩ :=
        stopped_of_passable plain legal clear failed
      refine ⟨earlier, stop, later, stopped, ?_, ?_, fun _ => ⟨occupied, vacant, rfl⟩⟩
      · intro bytes stands
        exact absurd stands (clear _ List.prefix_rfl bytes)
      · intro place bytes on _ stands
        exact absurd stands (clear place on bytes)
    · obtain ⟨place, bytes, on, stands⟩ := not_passable_iff.mp clear
      -- how the sync went can be read off at any file on the way
      have outcome {place : Path} {bytes : List UInt8} (on : place <+: directory.route)
          (stands : tree.entry place = some (.file bytes)) :
          fault = .create directory.text
            (if place = directory.route then .fileExists else .notADirectory) ∧ final = tree := by
        rw [sync_of_file plain directory_legal on stands, Prod.mk.injEq,
          Except.error.injEq] at failed
        exact ⟨failed.1.symm, failed.2.symm⟩
      obtain ⟨-, rfl⟩ := outcome on stands
      refine ⟨[], decoder, [customSupport], stopped_at_first directory final, ?_, ?_, ?_⟩
      · intro bytes stands
        rw [(outcome List.prefix_rfl stands).1, if_pos rfl]
        exact ⟨rfl, rfl⟩
      · intro place bytes on above stands
        rw [(outcome on stands).1, if_neg above]
        exact ⟨rfl, rfl⟩
      · rintro ⟨header, occupied⟩
        have there := dir_of_above_place on (occupied ▸ Option.some_ne_none _)
        simp [stands] at there

/-- A tree with a directory in the place of the second header's file, and without the first. -/
def occupied : FileTree :=
  ((FileTree.nothing.add [] .dir).add ["include"] .dir).add ["include", "custom_support.h"] .dir

theorem occupied_entry (path : Path) :
    occupied.entry path =
      if path = ["include", "custom_support.h"] then some .dir
      else if path = ["include"] then some .dir
      else if path = [] then some .dir
      else none := by
  rw [occupied, entry_add, include_entry]
  · simp [include_entry]
  · simp [Housed, include_entry]

theorem sync_fails_at_second_header :
    ∃ fault final, sync false ⟨["include"], "include"⟩ occupied = (.error fault, final) ∧
      fault.messages =
        ["Failed to write include/custom_support.h", "Is a directory (os error 21)"] ∧
      final.entry ["include", "decoder.h"] = some (.file decoder.bytes) ∧
      final.entry ["include", "custom_support.h"] = some .dir := by
  obtain ⟨fails, leaves⟩ :=
    sync_fails_exactly clear_unreadable.plain clear_unreadable.legal_file occupied
  have in_place : occupied.entry (customSupport.place ⟨["include"], "include"⟩) = some .dir := by
    rw [occupied_entry]
    rfl
  obtain ⟨fault, failed⟩ := fails.mpr (Or.inr ⟨customSupport, in_place⟩)
  obtain ⟨earlier, stop, later, stopped, -, -, at_directory⟩ := leaves fault _ (Prod.ext failed rfl)
  obtain ⟨stands, -, messages⟩ := at_directory ⟨customSupport, in_place⟩
  cases stop with
  | decoder =>
      rw [occupied_entry] at stands
      simp [place, fileName] at stands
  | customSupport =>
      refine ⟨fault, _, Prod.ext failed rfl, messages, ?_, ?_⟩
      · apply stopped.written decoder
        cases earlier with
        | nil => cases stopped.order
        | cons first rest =>
            obtain ⟨rfl, -⟩ := List.cons.inj stopped.order
            exact List.mem_cons_self
      · exact (stopped.kept customSupport List.mem_cons_self).trans in_place

end StaticOpus.Header
