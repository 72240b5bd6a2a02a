import StaticOpus.Header.Sync
import StaticOpus.Proofs.FileTree
import StaticOpus.Proofs.Text.Utf8

/-!
# A sync converges

A sync that comes to its end leaves every header in place, so that a second one finds nothing to do.
What it wrote is what a check would have named, and apart from missing directories on the way to
its own directory it changed nothing else.

## Implementation notes

Whether a header is up to date depends on one place of the tree only, its own file. This is true
although a file that cannot be read counts as empty, because no header is empty. Each header is
written to a file of its own, so writing one leaves open the question of the others, and the headers
that are found stale along the way are those that were stale at the start.
-/

namespace StaticOpus.Header

open FileTree

variable {directory : Location} {tree after final : FileTree} {header other : Header}
  {headers stale : List Header}

/-- The place of a header's file in a directory. -/
def place (directory : Location) (header : Header) : Path := directory.route ++ [header.fileName]

@[simp] theorem location_route (directory : Location) (header : Header) :
    (header.location directory).route = header.place directory := rfl

theorem location_plain (plain : directory.Plain) (header : Header) :
    (header.location directory).Plain := by
  apply plain.child
  cases header <;> decide

theorem place_injective (h : header.place directory = other.place directory) : header = other := by
  apply fileName_injective
  simpa [place] using h

/-- No header's file is on the way to its directory. -/
theorem place_not_on_way : ¬ header.place directory <+: directory.route := by
  intro h
  have : directory.route.length + 1 ≤ directory.route.length := by
    simpa [place] using h.length_le
  omega

/-! ## Which headers are up to date -/

theorem contents_ne_empty (header : Header) : header.contents ≠ "" := by
  cases header <;> simp [contents, lines, decoderLines, customSupportLines]

/-- A header is up to date exactly if the bytes that can be read at its location are its own. -/
theorem isCurrent_iff_read :
    header.isCurrent directory tree = true ↔
      tree.read? (header.location directory) = some header.bytes := by
  rw [isCurrent, decide_eq_true_iff, current]
  constructor
  · intro same
    cases held : tree.read? (header.location directory) with
    | none => exact absurd (by simpa [held] using same.symm) header.contents_ne_empty
    | some bytes =>
        cases text : Text.Utf8.decode? bytes with
        | none => exact absurd (by simpa [held, text] using same.symm) header.contents_ne_empty
        | some found =>
            obtain rfl : found = header.contents := by simpa [held, text] using same
            rw [Text.Utf8.decode?_eq_some_iff.mp text]
            rfl
  · intro held
    have text : Text.Utf8.decode? header.bytes = some header.contents :=
      Text.Utf8.decode?_eq_some_iff.mpr rfl
    simp [held, text]

/-- A header is up to date exactly if its file can be reached and holds its bytes. -/
theorem isCurrent_iff (plain : directory.Plain) :
    header.isCurrent directory tree = true ↔
      (header.location directory).Legal ∧
        tree.entry (header.place directory) = some (.file header.bytes) := by
  rw [isCurrent_iff_read, read?_eq_some_iff (location_plain plain header), location_route]

/-- The headers among some that are not up to date. -/
def staleAmong (directory : Location) (tree : FileTree) (headers : List Header) : List Header :=
  headers.filter fun header => !header.isCurrent directory tree

theorem staleAmong_cons :
    staleAmong directory tree (header :: headers) =
      if header.isCurrent directory tree then staleAmong directory tree headers
      else header :: staleAmong directory tree headers := by
  cases h : header.isCurrent directory tree <;> simp [staleAmong, h]

theorem not_mem_staleAmong (fresh : header ∉ headers) :
    header ∉ staleAmong directory tree headers := by
  intro mem
  apply fresh
  exact (List.mem_filter.mp mem).1

theorem not_mem_singleton (fresh : header ∉ headers) (mem : other ∈ headers) :
    other ∉ [header] := by
  rw [List.mem_singleton]
  rintro rfl
  exact fresh mem

theorem staleAmong_eq_nil_iff :
    staleAmong directory tree headers = [] ↔
      ∀ header ∈ headers, header.isCurrent directory tree = true := by
  simp [staleAmong]

/-! ## What a write changes -/

/-- Whether one tree is another with the files of some headers changed and with missing directories
on the way to them made. -/
def Updated (directory : Location) (stale : List Header) (tree final : FileTree) : Prop :=
  ∀ path, final.entry path = tree.entry path ∨
    (∃ header ∈ stale, path = header.place directory) ∨
      (path <+: directory.route ∧ tree.entry path = none ∧ final.entry path = some .dir)

namespace Updated

theorem refl (directory : Location) (tree : FileTree) : Updated directory [] tree tree := by
  intro path
  exact Or.inl rfl

theorem trans {earlier later : List Header} (first : Updated directory earlier tree after)
    (second : Updated directory later after final) :
    Updated directory (earlier ++ later) tree final := by
  intro path
  rcases second path with same | ⟨header, mem, there⟩ | ⟨on, missing, made⟩
  · rw [same]
    rcases first path with before | ⟨header, mem, there⟩ | made
    · exact Or.inl before
    · exact Or.inr (Or.inl ⟨header, List.mem_append_left later mem, there⟩)
    · exact Or.inr (Or.inr made)
  · exact Or.inr (Or.inl ⟨header, List.mem_append_right earlier mem, there⟩)
  · -- what was missing between the two was also missing before them, unless it is a header's file
    rcases first path with before | ⟨header, mem, there⟩ | ⟨-, -, there⟩
    · exact Or.inr (Or.inr ⟨on, before ▸ missing, made⟩)
    · exact Or.inr (Or.inl ⟨header, List.mem_append_left later mem, there⟩)
    · simp [there] at missing

theorem of_madeAlong (along : MadeAlong directory.route tree after) :
    Updated directory [] tree after := by
  intro path
  exact (along path).imp_right Or.inr

/-- The file of a header that is not among those changed stays as it was. -/
theorem entry_place (updated : Updated directory stale tree final) (kept : header ∉ stale) :
    final.entry (header.place directory) = tree.entry (header.place directory) := by
  rcases updated (header.place directory) with same | ⟨other, mem, there⟩ | ⟨on, -, -⟩
  · exact same
  · rw [place_injective there] at kept
    exact absurd mem kept
  · exact absurd on place_not_on_way

/-- Making the directory leaves every header's file as it was. -/
theorem entry_place_of_madeAlong (along : MadeAlong directory.route tree after)
    (header : Header) :
    after.entry (header.place directory) = tree.entry (header.place directory) :=
  (of_madeAlong along).entry_place List.not_mem_nil

theorem isCurrent_eq (updated : Updated directory stale tree final) (plain : directory.Plain)
    (kept : header ∉ stale) :
    header.isCurrent directory final = header.isCurrent directory tree := by
  rw [Bool.eq_iff_iff, isCurrent_iff plain, isCurrent_iff plain, updated.entry_place kept]

theorem staleAmong_eq (updated : Updated directory stale tree final) (plain : directory.Plain)
    (kept : ∀ header ∈ headers, header ∉ stale) :
    staleAmong directory final headers = staleAmong directory tree headers := by
  apply List.filter_congr
  intro header mem
  rw [updated.isCurrent_eq plain (kept header mem)]

end Updated

/-- A write that is done has made the directory and written the file. -/
theorem write_done (done : header.write directory tree = (.ok (), after)) :
    ∃ made, tree.createDirs directory = (.ok (), made) ∧
      made.write (header.location directory) header.bytes = .ok after := by
  rw [write] at done
  cases created : tree.createDirs directory with
  | mk outcome made =>
      cases outcome with
      | error cause => simp [created] at done
      | ok _ =>
          simp only [created] at done
          cases filed : made.write (header.location directory) header.bytes with
          | error cause => simp [filed] at done
          | ok written =>
              obtain rfl : written = after := by simpa [filed] using done
              exact ⟨made, rfl, filed⟩

/-- A write that is done brings its header up to date and changes no other file. -/
theorem updated_of_write (plain : directory.Plain)
    (done : header.write directory tree = (.ok (), after)) :
    header.isCurrent directory after = true ∧ Updated directory [header] tree after := by
  obtain ⟨made, created, filed⟩ := write_done done
  obtain ⟨-, along⟩ := madeAlong_of_createDirs plain created
  obtain ⟨legal, entry⟩ := entry_of_write (location_plain plain header) filed
  rw [location_route] at entry
  constructor
  · rw [isCurrent_iff plain, entry, if_pos rfl]
    exact ⟨legal, rfl⟩
  · intro path
    by_cases here : path = header.place directory
    · exact Or.inr (Or.inl ⟨header, List.mem_singleton_self header, here⟩)
    · rw [entry, if_neg here]
      exact (along path).imp_right Or.inr

/-- An update leaves the way to the directory as free as it was. -/
theorem Updated.passable (updated : Updated directory stale tree final)
    (clear : tree.Passable directory.route) : final.Passable directory.route := by
  intro place on bytes
  rcases updated place with same | ⟨header, -, rfl⟩ | ⟨-, -, there⟩
  · rw [same]
    exact clear place on bytes
  · exact absurd on place_not_on_way
  · simp [there]

/-! ## Going through the headers -/

/-- A check names the headers that are not up to date and changes nothing. -/
theorem syncEach_check (directory : Location) (headers : List Header) (tree : FileTree) :
    syncEach true directory headers tree = (.ok (staleAmong directory tree headers), tree) := by
  induction headers with
  | nil => rfl
  | cons header rest ih =>
      rw [syncEach, staleAmong_cons]
      by_cases current : header.isCurrent directory tree = true
      · rw [if_pos current, if_pos current, ih]
      · simp [current, ih]

theorem syncEach_of_current {check : Bool}
    (current : ∀ header ∈ headers, header.isCurrent directory tree = true) :
    syncEach check directory headers tree = (.ok [], tree) := by
  induction headers with
  | nil => rfl
  | cons header rest ih =>
      rw [syncEach, if_pos (current header List.mem_cons_self)]
      apply ih
      intro other mem
      exact current other (List.mem_cons_of_mem header mem)

/-- One step of going through the headers: the first is passed over or written. -/
theorem syncEach_cons_done
    (done : syncEach false directory (header :: headers) tree = (.ok stale, final)) :
    (header.isCurrent directory tree = true ∧
        syncEach false directory headers tree = (.ok stale, final)) ∨
      (¬ header.isCurrent directory tree = true ∧
        ∃ after later, header.write directory tree = (.ok (), after) ∧
          syncEach false directory headers after = (.ok later, final) ∧
          stale = header :: later) := by
  rw [syncEach] at done
  by_cases current : header.isCurrent directory tree = true
  · rw [if_pos current] at done
    exact Or.inl ⟨current, done⟩
  · simp only [if_neg current, Bool.false_eq_true, if_false] at done
    refine Or.inr ⟨current, ?_⟩
    cases written : header.write directory tree with
    | mk outcome after =>
        cases outcome with
        | error fault => simp [written] at done
        | ok _ =>
            simp only [written] at done
            cases onward : syncEach false directory headers after with
            | mk outcome last =>
                cases outcome with
                | error fault => simp [onward] at done
                | ok later =>
                    obtain ⟨rfl, rfl⟩ : header :: later = stale ∧ last = final := by
                      simpa [onward] using done
                    exact ⟨after, later, rfl, onward, rfl⟩

/-- What going through different headers comes to, if it comes to its end. -/
theorem updated_of_syncEach (plain : directory.Plain) (distinct : headers.Nodup)
    (done : syncEach false directory headers tree = (.ok stale, final)) :
    stale = staleAmong directory tree headers ∧
      (∀ header ∈ headers, header.isCurrent directory final = true) ∧
      Updated directory stale tree final := by
  induction headers generalizing tree stale with
  | nil =>
      obtain ⟨rfl, rfl⟩ : [] = stale ∧ tree = final := by simpa [syncEach] using done
      exact ⟨rfl, by simp, Updated.refl directory tree⟩
  | cons header rest ih =>
      obtain ⟨fresh, distinct_rest⟩ := List.nodup_cons.mp distinct
      rw [staleAmong_cons]
      rcases syncEach_cons_done done with
        ⟨current, onward⟩ | ⟨outdated, after, later, written, onward, rfl⟩
      · obtain ⟨found, all_current, updated⟩ := ih distinct_rest onward
        have kept : header ∉ stale := by
          rw [found]
          exact not_mem_staleAmong fresh
        refine ⟨by rw [if_pos current, found], ?_, updated⟩
        rw [List.forall_mem_cons, updated.isCurrent_eq plain kept]
        exact ⟨current, all_current⟩
      · obtain ⟨now_current, first⟩ := updated_of_write plain written
        obtain ⟨found, all_current, second⟩ := ih distinct_rest onward
        -- the rest is judged after the write, but as it would have been judged before it
        have others : ∀ other ∈ rest, other ∉ [header] :=
          fun other mem => not_mem_singleton fresh mem
        have kept : header ∉ later := by
          rw [found]
          exact not_mem_staleAmong fresh
        refine ⟨?_, ?_, first.trans second⟩
        · rw [if_neg outdated, found, first.staleAmong_eq plain others]
        · rw [List.forall_mem_cons, second.isCurrent_eq plain kept]
          exact ⟨now_current, all_current⟩

theorem mem_all (header : Header) : header ∈ all := by
  cases header <;> decide

/-! ## Where a sync comes to its end -/

/-- Whether nothing is in the way of a sync: the system takes every route, no file stands on the way
to the directory, and no directory in a header's place. -/
structure Clear (directory : Location) (tree : FileTree) : Prop where
  plain : directory.Plain
  legal : directory.Legal
  legal_file : ∀ header : Header, (header.location directory).Legal
  passable : tree.Passable directory.route
  vacant : ∀ header : Header, tree.entry (header.place directory) ≠ some .dir

theorem Clear.of_updated (clear : Clear directory tree)
    (updated : Updated directory stale tree final)
    (current : ∀ header ∈ stale, header.isCurrent directory final = true) :
    Clear directory final where
  plain := clear.plain
  legal := clear.legal
  legal_file := clear.legal_file
  passable := updated.passable clear.passable
  vacant := by
    intro header
    by_cases mem : header ∈ stale
    · simp [((isCurrent_iff clear.plain).mp (current header mem)).2]
    · rw [updated.entry_place mem]
      exact clear.vacant header

theorem Clear.exists_write (clear : Clear directory tree) (header : Header) :
    ∃ after, header.write directory tree = (.ok (), after) := by
  obtain ⟨made, created⟩ := exists_createDirs clear.plain clear.legal clear.passable
  obtain ⟨there, along⟩ := madeAlong_of_createDirs clear.plain created
  have vacant : made.entry (header.place directory) ≠ some .dir := by
    rw [Updated.entry_place_of_madeAlong along]
    exact clear.vacant header
  obtain ⟨written, filed⟩ := FileTree.exists_write (location_plain clear.plain header)
    (clear.legal_file header) (housed_concat.mpr there) vacant header.bytes
  refine ⟨written, ?_⟩
  simp only [write, created, filed]

theorem Clear.exists_syncEach (clear : Clear directory tree) (headers : List Header) :
    ∃ stale final, syncEach false directory headers tree = (.ok stale, final) := by
  induction headers generalizing tree with
  | nil => exact ⟨[], tree, rfl⟩
  | cons header rest ih =>
      by_cases current : header.isCurrent directory tree = true
      · rw [syncEach, if_pos current]
        exact ih clear
      · obtain ⟨after, written⟩ := clear.exists_write header
        obtain ⟨now_current, updated⟩ := updated_of_write clear.plain written
        have still_clear : Clear directory after := by
          apply clear.of_updated updated
          rintro other mem
          rwa [List.mem_singleton.mp mem]
        obtain ⟨stale, final, onward⟩ := ih still_clear
        refine ⟨header :: stale, final, ?_⟩
        simp [syncEach, current, written, onward]

/-- Where nothing is in its way, a sync comes to its end. -/
theorem Clear.exists_sync (clear : Clear directory tree) :
    ∃ final, sync false directory tree = (.ok (staleAmong directory tree all), final) := by
  obtain ⟨stale, final, done⟩ := clear.exists_syncEach all
  refine ⟨final, ?_⟩
  rw [← (updated_of_syncEach clear.plain (by decide) done).1]
  exact done

/-! ## Convergence -/

/-- A sync converges: whenever a sync comes to its end, every header's file holds exactly the
header's bytes, and from then on neither a check nor another sync finds or changes anything. The
headers that it wrote are those that a check would have named before. Apart from their files it
changed only what was missing on the way to its directory, and nothing at all if none was stale. -/
theorem sync_converges (plain : directory.Plain)
    (done : sync false directory tree = (.ok stale, final)) :
    (∀ header : Header, final.entry (header.place directory) = some (.file header.bytes)) ∧
      (∀ check, sync check directory final = (.ok [], final)) ∧
      sync true directory tree = (.ok stale, tree) ∧
      (∀ path, final.entry path ≠ tree.entry path →
        (∃ header ∈ stale, path = header.place directory) ∨
          (path <+: directory.route ∧ tree.entry path = none ∧ final.entry path = some .dir)) ∧
      (stale = [] → final = tree) := by
  obtain ⟨found, all_current, updated⟩ := updated_of_syncEach plain (by decide) done
  have agree : sync true directory tree = (.ok stale, tree) := by
    rw [found]
    exact syncEach_check directory all tree
  refine ⟨?_, ?_, agree, ?_, ?_⟩
  · intro header
    exact ((isCurrent_iff plain).mp (all_current header header.mem_all)).2
  · intro check
    exact syncEach_of_current all_current
  · intro path differs
    exact (updated path).resolve_left differs
  · intro none_stale
    -- nothing was stale at the start, so the sync itself went through without a write
    have all_fresh : ∀ header ∈ all, header.isCurrent directory tree = true :=
      staleAmong_eq_nil_iff.mp (found.symm.trans none_stale)
    have still : sync false directory tree = (.ok [], tree) := syncEach_of_current all_fresh
    rw [still] at done
    exact (congrArg Prod.snd done).symm

/-- A tree with one header's file, which is not text, and without the other's. -/
def unreadable : FileTree :=
  ((FileTree.nothing.add [] .dir).add ["include"] .dir).add ["include", "decoder.h"] (.file [0xFF])

theorem include_entry (path : Path) :
    ((FileTree.nothing.add [] .dir).add ["include"] .dir).entry path =
      if path = ["include"] then some .dir else if path = [] then some .dir else none := by
  have root (path : Path) : (FileTree.nothing.add [] .dir).entry path =
      if path = [] then some .dir else none := by
    apply entry_add _ (Or.inl rfl)
    simp [FileTree.nothing]
  rw [entry_add, root]
  · simp [root]
  · simp [Housed, root]

theorem unreadable_entry (path : Path) :
    unreadable.entry path =
      if path = ["include", "decoder.h"] then some (.file [0xFF])
      else if path = ["include"] then some .dir
      else if path = [] then some .dir
      else none := by
  rw [unreadable, entry_add, include_entry]
  · simp [include_entry]
  · simp [Housed, include_entry]

theorem clear_unreadable : Clear ⟨["include"], "include"⟩ unreadable where
  plain := by decide
  legal := by decide
  legal_file := by
    intro header
    cases header <;> decide
  passable := by
    intro place on bytes
    have short : place ≠ ["include", "decoder.h"] := by
      rintro rfl
      simpa using on.length_le
    rw [unreadable_entry, if_neg short]
    split_ifs <;> simp
  vacant := by
    intro header
    cases header <;> simp [unreadable_entry, place, fileName]

theorem sync_converges_over_unreadable :
    ∃ final,
      sync false ⟨["include"], "include"⟩ unreadable = (.ok [decoder, customSupport], final) ∧
      (∀ header : Header,
        final.entry ["include", header.fileName] = some (.file header.bytes)) ∧
      ∀ check, sync check ⟨["include"], "include"⟩ final = (.ok [], final) := by
  have found : staleAmong ⟨["include"], "include"⟩ unreadable all = [decoder, customSupport] := by
    have not_text : Text.Utf8.decode? [0xFF] = none := by decide
    have first : [0xFF] ≠ decoder.bytes := by
      intro same
      simp [Text.Utf8.decode?_eq_some_iff.mpr same] at not_text
    have stale (header : Header) :
        header.isCurrent ⟨["include"], "include"⟩ unreadable = false := by
      rw [Bool.eq_false_iff, ne_eq, isCurrent_iff clear_unreadable.plain, unreadable_entry]
      cases header <;> simp [place, fileName, first]
    simp [staleAmong, stale, all]
  obtain ⟨final, done⟩ := clear_unreadable.exists_sync
  rw [found] at done
  obtain ⟨files, again, -⟩ := sync_converges clear_unreadable.plain done
  exact ⟨final, done, files, again⟩

end StaticOpus.Header
