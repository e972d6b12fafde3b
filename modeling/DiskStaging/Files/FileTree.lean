import DiskStaging.Fault
import DiskStaging.Files.Path
import DiskStaging.Text.Utf8

/-!
# File trees

A file tree holds directories and files, each at a place: the names that lead to
it from the root. Paths are followed name by name, and only a directory leads any
further. A file that is opened for writing is created, or loses what it held.

Left out are permissions, links and the space on the disk: everything may be opened,
a place is reached by its own names only, and there is room for all that is written.
-/

set_option autoImplicit false

namespace DiskStaging

/-- A place in a file tree: the names that lead to it from the root. -/
abbrev Place := List String

/-- What there may be at a place. -/
inductive Node where
  | directory
  | file (content : Bytes)
  /-- A device that forgets what is written to it. -/
  | sink
  deriving DecidableEq, Repr, Inhabited

/-- The directories and files there are. -/
structure FileTree where
  /-- The working directory. -/
  home : Place
  /-- What there is, apart from the root. -/
  nodes : List (Place × Node)
  deriving Repr, Inhabited

namespace FileTree

/-- What there is at a place. -/
def node? (tree : FileTree) (place : Place) : Option Node :=
  if place.isEmpty then some .directory else tree.nodes.lookup place

/-- The tree with something else at one place. -/
def put (tree : FileTree) (place : Place) (node : Node) : FileTree :=
  { tree with nodes := (place, node) :: tree.nodes.filter (·.1 ≠ place) }

/-! ## Following paths -/

/-- The most bytes a name has. -/
def longestName : Nat := 255

/-- The most bytes a path has. -/
def longestPath : Nat := 4095

/-- The place that a name leads to from a directory. -/
def step (place : Place) (name : String) : Except FileFault Place :=
  if longestName < name.utf8ByteSize then .error .nameTooLong
  else if name = ".." then .ok place.dropLast
  else .ok (place ++ [name])

/-- Goes into the directory of that name. -/
def enter (tree : FileTree) (place : Place) (name : String) : Except FileFault Place := do
  let inside ← step place name
  match tree.node? inside with
  | none => .error .missing
  | some .directory => .ok inside
  | some _ => .error .notDirectory

/-- Checks that a path may be looked at. -/
def checkPath (path : Path) : Except FileFault Unit :=
  let text := path.render
  if text.contains (Char.ofNat 0) then .error .nullCharacter
  else if longestPath < text.utf8ByteSize then .error .nameTooLong
  else .ok ()

/-- Where a path starts. -/
def start (tree : FileTree) (path : Path) : Place :=
  match path.anchor with
  | .here => tree.home
  | .root | .doubleRoot => []

/-- The place that a path leads to; there may be nothing. -/
def place (tree : FileTree) (path : Path) : Except FileFault Place := do
  checkPath path
  match path.last? with
  | none => .ok (tree.start path)
  | some (directory, name) =>
    let inside ← directory.names.foldlM tree.enter (tree.start path)
    step inside name

/-- Whether a path leads to a directory. -/
def isDirectory (tree : FileTree) (path : Path) : Except FileFault Bool :=
  match tree.place path with
  | .ok place => .ok (tree.node? place = some .directory)
  | .error .nameTooLong => .error .nameTooLong
  | .error _ => .ok false

/-! ## Writing -/

/-- The place of the file that is opened for writing at a path. -/
def openFile (tree : FileTree) (path : Path) : Except FileFault Place := do
  let place ← tree.place path
  match tree.node? place with
  | some .directory => .error .isDirectory
  | _ => .ok place

/-- Writes the content of the file at a place, or to the device there. -/
def write (tree : FileTree) (place : Place) (content : Bytes) : FileTree :=
  match tree.node? place with
  | some .sink => tree
  | _ => tree.put place (.file content)

/-- Makes the directory at a path, and those that lead to it. -/
def makeDirectory (tree : FileTree) (path : Path) : FileTree :=
  (path.names.foldl (fun (tree, place) name =>
    let inside := place ++ [name]
    (if (tree.node? inside).isSome then tree else tree.put inside .directory, inside))
    (tree, tree.start path)).1

/-! ## Listing -/

/-- What there is in the working directory, with paths from there. The path of a
directory ends with a slash. -/
def listing (tree : FileTree) : List (String × Option Bytes) :=
  let inside := tree.nodes.filterMap fun (place, node) =>
    if tree.home.isPrefixOf place && tree.home.length < place.length then
      let path := "/".intercalate (place.drop tree.home.length)
      match node with
      | .directory => some (path ++ "/", none)
      | .file content => some (path, some content)
      | .sink => none
    else none
  inside.mergeSort fun (first, _) (second, _) => decide (first ≤ second)

/-- A tree with an empty working directory and a sink. -/
def fresh : FileTree where
  home := ["tmp", "work"]
  nodes := [(["tmp"], .directory), (["tmp", "work"], .directory), (["dev"], .directory),
    (["dev", "null"], .sink)]

/-! ## What writing changes -/

/-- Putting something at a place changes nothing anywhere else. -/
theorem node?_put (tree : FileTree) (place other : Place) (node : Node) (named : place ≠ []) :
    (tree.put place node).node? other = if other = place then some node else tree.node? other := by
  unfold node? put
  by_cases root : other = []
  · simp [root, named.symm]
  · by_cases same : other = place
    · simp [same, named]
    · have differ : (other == place) = false := beq_eq_false_iff_ne.2 same
      have kept : (tree.nodes.filter (·.1 ≠ place)).lookup other = tree.nodes.lookup other := by
        induction tree.nodes with
        | nil => rfl
        | cons entry rest ih =>
          obtain ⟨key, value⟩ := entry
          by_cases drop : key = place
          · simpa [drop, List.lookup_cons, differ] using ih
          · by_cases hit : other = key <;> simp_all [List.lookup_cons]
      simpa [root, same, List.lookup_cons, differ] using kept

end FileTree

end DiskStaging
