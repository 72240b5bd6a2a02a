import Mathlib.Data.List.Induction
import Mathlib.Data.List.TakeWhile
import StaticOpus.FileTree

/-!
# Reaching, writing and making places of a file tree

A route that only goes down leads to itself, and only where a directory stands at every place before
its end. So what stands at the end of such a route can be read off the tree, a write changes the
tree there and nowhere else, and making a directory adds missing directories on the way to it and
nothing else.
-/

namespace StaticOpus

/-- Whether a name leads down: it neither stays where it is nor goes up. -/
def Location.Descends (name : String) : Prop := name ≠ "." ∧ name ≠ ".."

instance (name : String) : Decidable (Location.Descends name) := inferInstanceAs (Decidable (_ ∧ _))

/-- Whether a route only goes down. -/
def Location.Plain (location : Location) : Prop :=
  ∀ name ∈ location.route, Location.Descends name

instance (location : Location) : Decidable location.Plain :=
  inferInstanceAs (Decidable (∀ _ ∈ _, _))

/-- Whether the system finds nothing wrong with a route before it looks at the tree. -/
def Location.Legal (location : Location) : Prop :=
  location.fault? = none ∧ ∀ name ∈ location.route, name.utf8ByteSize ≤ Location.nameLimit

instance (location : Location) : Decidable location.Legal :=
  inferInstanceAs (Decidable (_ = none ∧ ∀ _ ∈ _, _))

/-- The names before the first that is too long: as far as the system goes along them. -/
def Location.fitting (names : List String) : List String :=
  names.takeWhile fun name => name.utf8ByteSize ≤ nameLimit

theorem Location.fitting_eq_self_iff {names : List String} :
    fitting names = names ↔ ∀ name ∈ names, name.utf8ByteSize ≤ nameLimit := by
  simp [fitting]

theorem Location.fitting_prefix (names : List String) : fitting names <+: names :=
  List.takeWhile_prefix _

theorem Location.fitting_cons_of_short {name : String} (short : name.utf8ByteSize ≤ nameLimit)
    (rest : List String) : fitting (name :: rest) = name :: fitting rest :=
  List.takeWhile_cons_of_pos (by simpa using short)

theorem Location.fitting_cons_of_long {name : String} (long : nameLimit < name.utf8ByteSize)
    (rest : List String) : fitting (name :: rest) = [] :=
  List.takeWhile_cons_of_neg (by simpa using long)

theorem Location.short_of_mem_fitting {names : List String} {name : String}
    (mem : name ∈ fitting names) : name.utf8ByteSize ≤ nameLimit := by
  simpa using List.mem_takeWhile_imp mem

theorem Location.Legal.fitting_route {location : Location} (legal : location.Legal) :
    fitting location.route = location.route :=
  fitting_eq_self_iff.mpr legal.2

theorem Location.Plain.child {directory : Location} {name : String} (plain : directory.Plain)
    (descends : Location.Descends name) : (directory.child name).Plain := by
  intro other h
  rcases List.mem_append.mp h with h | h
  · exact plain other h
  · rwa [List.mem_singleton.mp h]

/-- What the text of a location in a directory begins with. -/
theorem Location.exists_child_text (directory : Location) (name : String) :
    ∃ ending, (directory.child name).text = directory.text ++ ending := by
  rw [child]
  split
  · exact ⟨name, rfl⟩
  · exact ⟨"/" ++ name, String.append_assoc⟩

/-- A directory is as good for the system as the files in it. -/
theorem Location.Legal.of_child {directory : Location} {name : String}
    (legal : (directory.child name).Legal) : directory.Legal := by
  obtain ⟨faultless, short⟩ := legal
  obtain ⟨ending, text⟩ := directory.exists_child_text name
  constructor
  · simp only [fault?, text, String.toList_append, List.mem_append,
      String.utf8ByteSize_append] at faultless
    split_ifs at faultless with zero long
    rw [fault?, if_neg fun h => zero (Or.inl h), if_neg (by omega)]
  · intro other mem
    exact short other (List.mem_append_left [name] mem)

theorem Location.next_of_descends {name : String} (descends : Location.Descends name)
    (place : Path) :
    Location.next place name =
      if nameLimit < name.utf8ByteSize then .error .nameTooLong else .ok (place ++ [name]) := by
  simp [next, descends.1, descends.2]

namespace FileTree

variable {tree made written : FileTree} {place path : Path} {location : Location}

/-! ## What stands above a place -/

/-- Above whatever stands in a tree there are directories only. -/
theorem dir_of_below {names : List String} (h : tree.entry (place ++ names) ≠ none)
    (below : names ≠ []) : tree.entry place = some .dir := by
  induction names using List.reverseRecOn with
  | nil => exact absurd rfl below
  | append_singleton names name ih =>
      have above : tree.entry (place ++ names) = some .dir := by
        apply tree.parent_dir _ name
        rwa [List.append_assoc]
      by_cases last : names = []
      · rwa [last, List.append_nil] at above
      · apply ih _ last
        simp [above]

/-- Whether the directory that a place is in is there. The root needs none. -/
def Housed (tree : FileTree) (path : Path) : Prop :=
  path = [] ∨ tree.entry path.dropLast = some .dir

@[simp] theorem housed_concat {name : String} :
    tree.Housed (place ++ [name]) ↔ tree.entry place = some .dir := by
  simp [Housed]

theorem housed_of_entry (h : tree.entry path ≠ none) : tree.Housed path := by
  cases path using List.reverseRecOn with
  | nil => exact Or.inl rfl
  | append_singleton place name => exact housed_concat.mpr (tree.parent_dir place name h)

theorem Housed.above {names : List String} (h : tree.Housed (place ++ names)) (below : names ≠ []) :
    tree.entry place = some .dir := by
  cases names using List.reverseRecOn with
  | nil => exact absurd rfl below
  | append_singleton names name =>
      rw [← List.append_assoc, housed_concat] at h
      by_cases last : names = []
      · rwa [last, List.append_nil] at h
      · apply dir_of_below _ last
        simp [h]

theorem not_housed_of_not_dir {name : String} {rest : List String}
    (h : tree.entry place ≠ some .dir) : ¬ tree.Housed (place ++ name :: rest) := by
  intro housed
  apply h
  apply housed.above
  exact List.cons_ne_nil name rest

/-! ## Following a route that only goes down -/

/-- A route that only goes down leads to its own end, exactly if no name of it is too long and the
directory that its end is in is there. -/
theorem follow_eq_ok_iff {names : List String}
    (plain : ∀ name ∈ names, Location.Descends name) :
    tree.follow place names = .ok path ↔
      path = place ++ names ∧ (∀ name ∈ names, name.utf8ByteSize ≤ Location.nameLimit) ∧
        (names = [] ∨ tree.Housed (place ++ names)) := by
  induction names generalizing place with
  | nil => simp [follow, eq_comm]
  | cons name rest ih =>
      have onward : tree.follow (place ++ [name]) rest = .ok path ↔
          path = place ++ name :: rest ∧
            (∀ name ∈ rest, name.utf8ByteSize ≤ Location.nameLimit) ∧
            (rest = [] ∨ tree.Housed (place ++ name :: rest)) := by
        rw [ih fun other h => plain other (List.mem_cons_of_mem name h), List.append_assoc,
          List.singleton_append]
      rw [follow, Location.next_of_descends (plain name List.mem_cons_self)]
      cases h : tree.entry place with
      | none =>
          have unhoused : ¬ tree.Housed (place ++ name :: rest) :=
            not_housed_of_not_dir (by simp [h])
          simp [unhoused]
      | some entry =>
          cases entry with
          | file bytes =>
              have unhoused : ¬ tree.Housed (place ++ name :: rest) :=
                not_housed_of_not_dir (by simp [h])
              simp [unhoused]
          | dir =>
              by_cases long : Location.nameLimit < name.utf8ByteSize
              · simp [long, Nat.not_le.mpr long]
              · have short : name.utf8ByteSize ≤ Location.nameLimit := Nat.le_of_not_lt long
                have first : tree.Housed (place ++ [name]) := housed_concat.mpr h
                simp only [long, if_false, onward, List.forall_mem_cons, short, true_and,
                  reduceCtorEq, false_or]
                cases rest with
                | nil => simp [first]
                | cons => simp

theorem locate_eq_ok_iff (plain : location.Plain) :
    tree.locate location = .ok path ↔
      path = location.route ∧ location.Legal ∧ tree.Housed location.route := by
  rw [locate]
  cases h : location.fault? with
  | some fault => simp [Location.Legal, h]
  | none =>
      have root : location.route = [] → tree.Housed location.route := Or.inl
      simp only [follow_eq_ok_iff plain, List.nil_append, Location.Legal, h, true_and]
      tauto

/-- What can be read at a location is the file that stands where it leads. -/
theorem read?_eq_some_iff_locate {bytes : List UInt8} :
    tree.read? location = some bytes ↔
      ∃ path, tree.locate location = .ok path ∧ tree.entry path = some (.file bytes) := by
  rw [read?, find?]
  cases located : tree.locate location with
  | error fault => simp
  | ok path =>
      cases stands : tree.entry path with
      | none => simp [stands]
      | some entry => cases entry <;> simp [stands]

/-- What can be read at the end of a route that only goes down is the file that stands there. -/
theorem read?_eq_some_iff (plain : location.Plain) {bytes : List UInt8} :
    tree.read? location = some bytes ↔
      location.Legal ∧ tree.entry location.route = some (.file bytes) := by
  rw [read?_eq_some_iff_locate]
  constructor
  · rintro ⟨path, located, stands⟩
    obtain ⟨rfl, legal, -⟩ := (locate_eq_ok_iff plain).mp located
    exact ⟨legal, stands⟩
  · rintro ⟨legal, stands⟩
    have housed : tree.Housed location.route := housed_of_entry (by simp [stands])
    exact ⟨location.route, (locate_eq_ok_iff plain).mpr ⟨rfl, legal, housed⟩, stands⟩

/-! ## Writing -/

theorem entry_add {entry : Entry} (vacant : tree.entry path ≠ some .dir) (housed : tree.Housed path)
    (place : Path) :
    (tree.add path entry).entry place = if place = path then some entry else tree.entry place := by
  rw [add, dif_pos ⟨vacant, housed⟩]
  rfl

/-- A write that is made changes what stands at the end of the route, and nothing else. -/
theorem entry_of_write (plain : location.Plain) {bytes : List UInt8}
    (done : tree.write location bytes = .ok written) :
    location.Legal ∧ ∀ place, written.entry place =
      if place = location.route then some (.file bytes) else tree.entry place := by
  rw [write] at done
  cases located : tree.locate location with
  | error fault => simp [located] at done
  | ok path =>
      obtain ⟨rfl, legal, housed⟩ := (locate_eq_ok_iff plain).mp located
      simp only [located] at done
      by_cases occupied : tree.entry location.route = some .dir
      · simp [occupied] at done
      · rw [if_neg occupied] at done
        obtain rfl := Except.ok.inj done
        exact ⟨legal, entry_add occupied housed⟩

/-! ## Making directories -/

/-- Whether one tree is another with directories added where nothing stood on a way. -/
def MadeAlong (way : Path) (tree made : FileTree) : Prop :=
  ∀ place, made.entry place = tree.entry place ∨
    (place <+: way ∧ tree.entry place = none ∧ made.entry place = some .dir)

namespace MadeAlong

variable {way : Path}

theorem refl (way : Path) (tree : FileTree) : MadeAlong way tree tree := by
  intro place
  exact Or.inl rfl

theorem trans {last : FileTree} (first : MadeAlong way tree made)
    (second : MadeAlong way made last) : MadeAlong way tree last := by
  intro place
  rcases first place with same | ⟨on, missing, there⟩
  · rw [← same]
    exact second place
  · right
    refine ⟨on, missing, ?_⟩
    rcases second place with same | ⟨-, gone, -⟩
    · rw [same, there]
    · simp [there] at gone

theorem extend {longer : Path} (along : MadeAlong way tree made) (start : way <+: longer) :
    MadeAlong longer tree made := by
  intro place
  rcases along place with same | ⟨on, missing, there⟩
  · exact Or.inl same
  · exact Or.inr ⟨on.trans start, missing, there⟩

end MadeAlong

/-- What stands after the directories on a way have been made. -/
theorem MadeAlong.entry_eq (along : MadeAlong way tree made) (final : made.entry way = some .dir)
    (path : Path) : made.entry path = if path <+: way then some .dir else tree.entry path := by
  by_cases on : path <+: way
  · rw [if_pos on]
    obtain ⟨names, rfl⟩ := on
    by_cases last : names = []
    · rwa [last, List.append_nil] at final
    · exact dir_of_below (final ▸ Option.some_ne_none _) last
  · rw [if_neg on]
    exact (along path).resolve_right fun added => on added.1

/-- To arrive at a place is to have a directory there, made if it was missing. -/
theorem madeAlong_of_arrive {missing : Bool} {rest : List String} (housed : tree.Housed place)
    (done : tree.arrive place missing rest = .ok made) :
    made.entry place = some .dir ∧ MadeAlong place tree made := by
  rw [arrive] at done
  cases stands : tree.entry place with
  | some entry =>
      cases entry with
      | file bytes => simp [stands] at done
      | dir =>
          simp only [stands, Except.ok.injEq] at done
          subst done
          exact ⟨stands, MadeAlong.refl place tree⟩
  | none =>
      have vacant : tree.entry place ≠ some .dir := by simp [stands]
      simp only [stands] at done
      split at done
      · cases done
      · obtain rfl := Except.ok.inj done
        constructor
        · simp [entry_add vacant housed]
        · intro other
          by_cases here : other = place
          · subst here
            exact Or.inr ⟨List.prefix_rfl, stands, by simp [entry_add vacant housed]⟩
          · exact Or.inl (by simp [entry_add vacant housed, here])

theorem madeAlong_of_descend {missing : Bool} {names : List String}
    (plain : ∀ name ∈ names, Location.Descends name) (start : tree.entry place = some .dir)
    (done : tree.descend place missing names = (.ok (), made)) :
    made.entry (place ++ names) = some .dir ∧ MadeAlong (place ++ names) tree made := by
  induction names generalizing tree place missing with
  | nil =>
      obtain rfl : tree = made := congrArg Prod.snd done
      rw [List.append_nil]
      exact ⟨start, MadeAlong.refl place tree⟩
  | cons name rest ih =>
      rw [descend, Location.next_of_descends (plain name List.mem_cons_self)] at done
      by_cases long : Location.nameLimit < name.utf8ByteSize
      · simp [long] at done
      · rw [if_neg long] at done
        simp only at done
        cases arrived : tree.arrive (place ++ [name]) missing rest with
        | error fault => simp [arrived] at done
        | ok next =>
            simp only [arrived] at done
            obtain ⟨there, first⟩ := madeAlong_of_arrive (housed_concat.mpr start) arrived
            have onward := ih (fun other h => plain other (List.mem_cons_of_mem name h)) there done
            rw [List.append_assoc, List.singleton_append] at onward
            refine ⟨onward.1, MadeAlong.trans ?_ onward.2⟩
            apply first.extend
            simp

/-- Making a directory along a route that only goes down puts a directory at its end, and changes
nothing but what was missing on the way to it. -/
theorem madeAlong_of_createDirs (plain : location.Plain)
    (done : tree.createDirs location = (.ok (), made)) :
    made.entry location.route = some .dir ∧ MadeAlong location.route tree made := by
  rw [createDirs] at done
  cases faulty : location.fault? with
  | some fault => simp [faulty] at done
  | none =>
      simp only [faulty] at done
      cases arrived : tree.arrive [] false location.route with
      | error fault => simp [arrived] at done
      | ok root =>
          simp only [arrived] at done
          obtain ⟨there, first⟩ := madeAlong_of_arrive (Or.inl rfl) arrived
          obtain ⟨final, along⟩ := madeAlong_of_descend plain there done
          exact ⟨final, (first.extend List.nil_prefix).trans along⟩

/-! ## Where nothing is in the way -/

/-- Whether no file stands on a way. -/
def Passable (tree : FileTree) (way : Path) : Prop :=
  ∀ place, place <+: way → ∀ bytes, tree.entry place ≠ some (.file bytes)

theorem not_passable_iff {way : Path} :
    ¬ tree.Passable way ↔
      ∃ place bytes, place <+: way ∧ tree.entry place = some (.file bytes) := by
  simp only [Passable, not_forall, not_not]
  constructor
  · rintro ⟨place, on, bytes, stands⟩
    exact ⟨place, bytes, on, stands⟩
  · rintro ⟨place, bytes, on, stands⟩
    exact ⟨place, on, bytes, stands⟩

theorem Passable.of_madeAlong {way other : Path} (clear : tree.Passable way)
    (along : MadeAlong other tree made) : made.Passable way := by
  intro place on bytes
  rcases along place with same | ⟨-, -, there⟩
  · rw [same]
    exact clear place on bytes
  · simp [there]

theorem exists_write (plain : location.Plain) (legal : location.Legal)
    (housed : tree.Housed location.route) (vacant : tree.entry location.route ≠ some .dir)
    (bytes : List UInt8) : ∃ written, tree.write location bytes = .ok written := by
  have located : tree.locate location = .ok location.route :=
    (locate_eq_ok_iff plain).mpr ⟨rfl, legal, housed⟩
  refine ⟨tree.add location.route (.file bytes), ?_⟩
  rw [write, located]
  exact if_neg vacant

theorem exists_arrive {rest : List String} (clear : ∀ bytes, tree.entry place ≠ some (.file bytes))
    (plain : ∀ name ∈ rest, Location.Descends name) (missing : Bool) :
    ∃ made, tree.arrive place missing rest = .ok made := by
  -- the system refuses to make a directory only to stay in it, which a plain route never asks for
  have moves : ¬ (rest ≠ [] ∧ stays rest = true) := by
    rintro ⟨nonempty, still⟩
    obtain ⟨name, mem⟩ := List.exists_mem_of_ne_nil rest nonempty
    rw [stays, List.all_eq_true] at still
    exact (plain name mem).1 (by simpa using still name mem)
  rw [arrive]
  cases stands : tree.entry place with
  | some entry =>
      cases entry with
      | file bytes => exact absurd stands (clear bytes)
      | dir => exact ⟨tree, rfl⟩
  | none => exact ⟨tree.add place .dir, if_neg moves⟩

/-- Where no file is in the way, directories are made as far as the system goes along a route. -/
theorem descend_of_passable {names : List String}
    (plain : ∀ name ∈ names, Location.Descends name) (start : tree.entry place = some .dir)
    (clear : tree.Passable (place ++ Location.fitting names)) (missing : Bool) :
    ∃ made, tree.descend place missing names =
        (if Location.fitting names = names then .ok () else .error .nameTooLong, made) ∧
      made.entry (place ++ Location.fitting names) = some .dir ∧
      MadeAlong (place ++ Location.fitting names) tree made := by
  induction names generalizing tree place missing with
  | nil => exact ⟨tree, rfl, by simpa [Location.fitting] using start, MadeAlong.refl _ tree⟩
  | cons name rest ih =>
      rw [List.forall_mem_cons] at plain
      rw [descend, Location.next_of_descends plain.1]
      by_cases long : Location.nameLimit < name.utf8ByteSize
      · refine ⟨tree, ?_⟩
        rw [Location.fitting_cons_of_long long, List.append_nil]
        exact ⟨by simp [long], start, MadeAlong.refl place tree⟩
      · rw [Location.fitting_cons_of_short (Nat.le_of_not_lt long)] at clear ⊢
        have way : place ++ name :: Location.fitting rest =
            place ++ [name] ++ Location.fitting rest := by simp
        rw [way] at clear ⊢
        have here : ∀ bytes, tree.entry (place ++ [name]) ≠ some (.file bytes) := by
          apply clear
          exact List.prefix_append _ (Location.fitting rest)
        obtain ⟨made, arrived⟩ := exists_arrive here plain.2 missing
        obtain ⟨there, first⟩ := madeAlong_of_arrive (housed_concat.mpr start) arrived
        obtain ⟨last, onward, final, along⟩ := ih plain.2 there (clear.of_madeAlong first)
          (missing || (tree.entry (place ++ [name])).isNone)
        refine ⟨last, ?_, final, (first.extend (List.prefix_append _ _)).trans along⟩
        simp [long, arrived, onward]

/-- A directory is made wherever no file stands on the way to it, as far as the system goes along
the route. -/
theorem createDirs_of_passable (plain : location.Plain) (faultless : location.fault? = none)
    (clear : tree.Passable (Location.fitting location.route)) :
    ∃ made, tree.createDirs location =
        (if Location.fitting location.route = location.route then .ok ()
          else .error .nameTooLong, made) ∧
      made.entry (Location.fitting location.route) = some .dir ∧
      MadeAlong (Location.fitting location.route) tree made := by
  obtain ⟨root, arrived⟩ := exists_arrive (clear [] List.nil_prefix) plain false
  obtain ⟨there, first⟩ := madeAlong_of_arrive (Or.inl rfl) arrived
  obtain ⟨last, onward, final, along⟩ :=
    descend_of_passable plain there (clear.of_madeAlong first) (tree.entry []).isNone
  refine ⟨last, ?_, final, (first.extend List.nil_prefix).trans along⟩
  simp only [createDirs, faultless, arrived, onward]

/-- A directory can be made wherever no file stands on the way to it. -/
theorem exists_createDirs (plain : location.Plain) (legal : location.Legal)
    (clear : tree.Passable location.route) :
    ∃ made, tree.createDirs location = (.ok (), made) := by
  obtain ⟨made, created, -⟩ :=
    createDirs_of_passable plain legal.1 (legal.fitting_route.symm ▸ clear)
  rw [if_pos legal.fitting_route] at created
  exact ⟨made, created⟩

/-! ## Where something is in the way -/

/-- A write is refused only for a directory in the file's place, if the directory that the file is
to be in is there. -/
theorem fault_of_write (plain : location.Plain) (legal : location.Legal)
    (housed : tree.Housed location.route) {bytes : List UInt8} {fault : FileFault}
    (refused : tree.write location bytes = .error fault) :
    tree.entry location.route = some .dir ∧ fault = .isADirectory := by
  have located : tree.locate location = .ok location.route :=
    (locate_eq_ok_iff plain).mpr ⟨rfl, legal, housed⟩
  rw [write, located] at refused
  simp only at refused
  split at refused
  · next occupied =>
      cases refused
      exact ⟨occupied, rfl⟩
  · cases refused

theorem ne_dir_of_write (plain : location.Plain) {bytes : List UInt8}
    (done : tree.write location bytes = .ok written) : tree.entry location.route ≠ some .dir := by
  intro occupied
  rw [write] at done
  cases located : tree.locate location with
  | error fault => simp [located] at done
  | ok path =>
      obtain ⟨rfl, -, -⟩ := (locate_eq_ok_iff plain).mp located
      simp [located, occupied] at done

theorem arrive_of_file {bytes : List UInt8} (stands : tree.entry place = some (.file bytes))
    (rest : List String) :
    tree.arrive place false rest =
      .error (if rest = [] then .fileExists else .notADirectory) := by
  simp [arrive, stands, fileFault]

/-- On the way to a file every directory is there already, so that none is made before it. -/
theorem descend_of_file {front back : List String} {bytes : List UInt8}
    (plain : ∀ name ∈ front, Location.Descends name)
    (short : ∀ name ∈ front, name.utf8ByteSize ≤ Location.nameLimit) (onward : front ≠ [])
    (stands : tree.entry (place ++ front) = some (.file bytes)) :
    tree.descend place false (front ++ back) =
      (.error (if back = [] then .fileExists else .notADirectory), tree) := by
  induction front generalizing place with
  | nil => exact absurd rfl onward
  | cons name rest ih =>
      rw [List.forall_mem_cons] at plain short
      rw [← List.singleton_append, ← List.append_assoc] at stands
      rw [List.cons_append, descend, Location.next_of_descends plain.1,
        if_neg (Nat.not_lt.mpr short.1)]
      by_cases last : rest = []
      · subst last
        rw [List.append_nil] at stands
        simp [arrive_of_file stands]
      · have there : tree.entry (place ++ [name]) = some .dir :=
          dir_of_below (stands ▸ Option.some_ne_none _) last
        simp [arrive, there, ih plain.2 short.2 last stands]

/-- A directory cannot be made where a file stands on the way to it, and the attempt changes
nothing. -/
theorem createDirs_of_file (plain : location.Plain) (faultless : location.fault? = none)
    {bytes : List UInt8} (on : place <+: Location.fitting location.route)
    (stands : tree.entry place = some (.file bytes)) :
    tree.createDirs location =
      (.error (if place = location.route then .fileExists else .notADirectory), tree) := by
  obtain ⟨back, route⟩ := on.trans (Location.fitting_prefix location.route)
  have ends : place = location.route ↔ back = [] := by
    rw [← route, List.self_eq_append_right]
  simp only [createDirs, faultless, ends]
  by_cases root : place = []
  · subst root
    obtain rfl : back = location.route := by simpa using route
    rw [arrive_of_file stands]
  · have there : tree.entry [] = some .dir := dir_of_below (by simp [stands]) root
    have front_plain : ∀ name ∈ place, Location.Descends name := by
      intro name mem
      apply plain
      rw [← route]
      exact List.mem_append_left back mem
    have front_short : ∀ name ∈ place, name.utf8ByteSize ≤ Location.nameLimit := by
      intro name mem
      exact Location.short_of_mem_fitting (on.subset mem)
    have refused : tree.descend [] false (place ++ back) = _ :=
      descend_of_file front_plain front_short root stands
    rw [route] at refused
    simp [arrive, there, refused]

/-! ## Whatever comes of it -/

theorem createDirs_of_fault {fault : FileFault} (faulty : location.fault? = some fault) :
    tree.createDirs location = (.error fault, tree) := by
  simp only [createDirs, faulty]

/-- Whatever making a directory comes to, it only adds directories on the way. -/
theorem madeAlong_createDirs (plain : location.Plain) (tree : FileTree) :
    MadeAlong location.route tree (tree.createDirs location).2 := by
  cases faulty : location.fault? with
  | some fault =>
      rw [createDirs_of_fault faulty]
      exact MadeAlong.refl _ tree
  | none =>
      by_cases clear : tree.Passable (Location.fitting location.route)
      · obtain ⟨made, created, -, along⟩ := createDirs_of_passable plain faulty clear
        rw [created]
        exact along.extend (Location.fitting_prefix location.route)
      · obtain ⟨place, bytes, on, stands⟩ := not_passable_iff.mp clear
        rw [createDirs_of_file plain faulty on stands]
        exact MadeAlong.refl _ tree

/-- Only a directory at a route that the system takes is made. -/
theorem legal_of_createDirs (plain : location.Plain)
    (done : tree.createDirs location = (.ok (), made)) : location.Legal := by
  cases faulty : location.fault? with
  | some fault => simp [createDirs_of_fault faulty] at done
  | none =>
      refine ⟨faulty, ?_⟩
      by_cases clear : tree.Passable (Location.fitting location.route)
      · obtain ⟨filled, created, -⟩ := createDirs_of_passable plain faulty clear
        rw [created] at done
        by_cases fits : Location.fitting location.route = location.route
        · exact Location.fitting_eq_self_iff.mp fits
        · simp [fits] at done
      · obtain ⟨place, bytes, on, stands⟩ := not_passable_iff.mp clear
        simp [createDirs_of_file plain faulty on stands] at done

/-- In a directory that is there, a write is decided by the route and by what stands in its place. -/
theorem write_of_housed (plain : location.Plain) (housed : tree.Housed location.route)
    (short : ∀ name ∈ location.route, name.utf8ByteSize ≤ Location.nameLimit)
    (bytes : List UInt8) :
    tree.write location bytes =
      match location.fault? with
      | some fault => .error fault
      | none =>
        if tree.entry location.route = some .dir then .error .isADirectory
        else .ok (tree.add location.route (.file bytes)) := by
  cases faulty : location.fault? with
  | some fault => simp [write, locate, faulty]
  | none =>
      have located : tree.locate location = .ok location.route :=
        (locate_eq_ok_iff plain).mpr ⟨rfl, ⟨faulty, short⟩, housed⟩
      simp only [write, located]

end FileTree

end StaticOpus
