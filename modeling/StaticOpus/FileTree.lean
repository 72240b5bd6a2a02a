/-!
# File trees

A tree maps a path, the list of its names from the root, to what stands there. What stands below a
path needs a directory at that path. The root itself may be missing, a file or a directory; its own
parent always exists.

The system reaches a place by a route, which may also stay where it is or go up, and it bounds the
length of a name and of a whole route.

## Implementation notes

A tree is a function, so two trees with the same entries are equal however they came about.
-/

namespace StaticOpus

/-- The names from the root of a tree to a place in it. -/
abbrev Path := List String

/-- What stands at a place of a tree. -/
inductive Entry where
  | file (bytes : List UInt8)
  | dir
  deriving DecidableEq

/-- A tree of files and directories. -/
structure FileTree where
  entry : Path → Option Entry
  parent_dir : ∀ path name, entry (path ++ [name]) ≠ none → entry path = some .dir

/-- Why the system refuses to touch a place. -/
inductive FileFault where
  /-- Nothing stands there. -/
  | notFound
  /-- A file stands where a directory was to be made. -/
  | fileExists
  /-- A file stands on the way. -/
  | notADirectory
  /-- A directory stands where a file was to be written. -/
  | isADirectory
  /-- A name, or the whole route, is too long. -/
  | nameTooLong
  /-- The route holds the zero character, with which the system ends a text. -/
  | nulInRoute
  deriving DecidableEq

/-- The system's text for a fault. -/
def FileFault.message : FileFault → String
  | .notFound => "No such file or directory (os error 2)"
  | .fileExists => "File exists (os error 17)"
  | .notADirectory => "Not a directory (os error 20)"
  | .isADirectory => "Is a directory (os error 21)"
  | .nameTooLong => "File name too long (os error 36)"
  | .nulInRoute => "file name contained an unexpected NUL byte"

/-- A route from the root of a tree, as the system is given it. -/
structure Location where
  /-- The names to follow; a dot stays, two dots go up. -/
  route : List String
  /-- The route as it is written, from wherever the root is. -/
  text : String

namespace Location

/-- The bytes that a name can have. -/
def nameLimit : Nat := 255

/-- The bytes that a written route can have. -/
def textLimit : Nat := 4095

/-- What the system finds wrong with a route before it follows it. -/
def fault? (location : Location) : Option FileFault :=
  if '\x00' ∈ location.text.toList then some .nulInRoute
  else if textLimit < location.text.utf8ByteSize then some .nameTooLong
  else none

/-- The location of a name in the directory at a location. The name is written after a slash, unless
the directory is written as nothing or already with a slash at its end. -/
def child (location : Location) (name : String) : Location where
  route := location.route ++ [name]
  text :=
    if location.text = "" ∨ location.text.toList.getLast? = some '/' then location.text ++ name
    else location.text ++ "/" ++ name

/-- Where one name of a route leads from a directory. The parent of the root is taken for the root.
-/
def next (place : Path) (name : String) : Except FileFault Path :=
  if name = "." then .ok place
  else if name = ".." then .ok place.dropLast
  else if nameLimit < name.utf8ByteSize then .error .nameTooLong
  else .ok (place ++ [name])

end Location

namespace FileTree

/-- The tree with nothing in it, not even a root. -/
def nothing : FileTree where
  entry := fun _ => none
  parent_dir := fun _ _ h => absurd rfl h

/-- Whether something new can stand at a path: no directory does, and the parent is a directory. -/
def HasRoom (tree : FileTree) (path : Path) : Prop :=
  tree.entry path ≠ some .dir ∧ (path = [] ∨ tree.entry path.dropLast = some .dir)

instance (tree : FileTree) (path : Path) : Decidable (tree.HasRoom path) :=
  inferInstanceAs (Decidable (_ ∧ _))

/-- The tree with a new entry where there is room for it. -/
def set (tree : FileTree) (path : Path) (entry : Entry) (room : tree.HasRoom path) : FileTree where
  entry := fun place => if place = path then some entry else tree.entry place
  parent_dir := by
    intro place name h
    by_cases new : place ++ [name] = path
    · subst new
      have here : tree.entry place = some .dir := by simpa using room.2
      have : place ≠ place ++ [name] := by simp
      simp [this, here]
    · have below : tree.entry place = some .dir :=
        tree.parent_dir place name (by simpa [new] using h)
      have : place ≠ path := fun same => room.1 (same ▸ below)
      simp [this, below]

/-- The tree with a new entry, or the tree itself if there is no room for it. -/
def add (tree : FileTree) (path : Path) (entry : Entry) : FileTree :=
  if room : tree.HasRoom path then tree.set path entry room else tree

/-- The tree without what stands at a path and below it. -/
def remove (tree : FileTree) (path : Path) : FileTree where
  entry := fun place => if path.isPrefixOf place then none else tree.entry place
  parent_dir := by
    intro place name h
    by_cases gone : path.isPrefixOf (place ++ [name]) = true
    · simp [gone] at h
    · have stays : ¬ path.isPrefixOf place = true := fun below =>
        gone (List.isPrefixOf_iff_prefix.mpr
          ((List.isPrefixOf_iff_prefix.mp below).trans (List.prefix_append place [name])))
      simp only [stays]
      exact tree.parent_dir place name (by simpa [gone] using h)

/-- The tree with an entry, or nothing, in place of what stands at a path. Missing directories on
the way are added. -/
def put (tree : FileTree) (path : Path) (entry : Option Entry) : FileTree :=
  let bare := tree.remove path
  match entry with
  | none => bare
  | some entry =>
    let housed := ((List.range path.length).map (path.take ·)).foldl (fun tree place =>
      if tree.entry place = none then tree.add place .dir else tree) bare
    housed.add path entry

/-- Where the names of a route lead. Each is looked up in the directory reached so far; what stands
at the last place is not looked at. -/
def follow (tree : FileTree) : Path → List String → Except FileFault Path
  | place, [] => .ok place
  | place, name :: rest =>
    match tree.entry place with
    | none => .error .notFound
    | some (.file _) => .error .notADirectory
    | some .dir =>
      match Location.next place name with
      | .error fault => .error fault
      | .ok next => follow tree next rest

/-- Where a location is. -/
def locate (tree : FileTree) (location : Location) : Except FileFault Path :=
  match location.fault? with
  | some fault => .error fault
  | none => tree.follow [] location.route

/-- What stands at a location, if it can be reached. -/
def find? (tree : FileTree) (location : Location) : Option Entry :=
  match tree.locate location with
  | .error _ => none
  | .ok path => tree.entry path

/-- The bytes of the file at a location, if it can be read as a file. -/
def read? (tree : FileTree) (location : Location) : Option (List UInt8) :=
  match tree.find? location with
  | some (.file bytes) => some bytes
  | _ => none

/-- Writes a file: a new one into a directory that is there, or over the old one. -/
def write (tree : FileTree) (location : Location) (bytes : List UInt8) :
    Except FileFault FileTree :=
  match tree.locate location with
  | .error fault => .error fault
  | .ok path =>
    if tree.entry path = some .dir then .error .isADirectory
    else .ok (tree.add path (.file bytes))

/-- Whether names only stay where they are. -/
def stays (names : List String) : Bool := names.all (· = ".")

/-- The fault of a file at a place of a route, of which `rest` is still to go. The system is first
asked for the directory at the end. Only if something is missing on the way is it asked for one
directory after the other, so that the file stands where a directory was to be made. -/
def fileFault (missing : Bool) (rest : List String) : FileFault :=
  if rest = [] ∨ (missing ∧ ¬ stays rest) then .fileExists else .notADirectory

/-- Makes sure that a directory stands at a place of a route, of which `rest` is still to go;
`missing` tells that one before it had to be made. A directory that is only to stay in is not made.
-/
def arrive (tree : FileTree) (place : Path) (missing : Bool) (rest : List String) :
    Except FileFault FileTree :=
  match tree.entry place with
  | some .dir => .ok tree
  | some (.file _) => .error (fileFault missing rest)
  | none => if rest ≠ [] ∧ stays rest then .error .notFound else .ok (tree.add place .dir)

/-- Goes from a directory along the names of a route and makes what is missing, up to the first
fault; what was made before it stays. -/
def descend (tree : FileTree) (place : Path) (missing : Bool) :
    List String → Except FileFault Unit × FileTree
  | [] => (.ok (), tree)
  | name :: rest =>
    match Location.next place name with
    | .error fault => (.error fault, tree)
    | .ok next =>
      match tree.arrive next missing rest with
      | .error fault => (.error fault, tree)
      | .ok made => descend made next (missing || (tree.entry next).isNone) rest

/-- Makes a directory and all that are missing on the way to it. A directory that is already there
is left alone. -/
def createDirs (tree : FileTree) (location : Location) : Except FileFault Unit × FileTree :=
  match location.fault? with
  | some fault => (.error fault, tree)
  | none =>
    match tree.arrive [] false location.route with
    | .error fault => (.error fault, tree)
    | .ok made => descend made [] (tree.entry []).isNone location.route

end FileTree

end StaticOpus
