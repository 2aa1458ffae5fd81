import TypedScript.Files.Path

set_option autoImplicit false

/-!
A tree of files and directories without links. Entries are kept by location, the
list of names from the root; the root itself is always a directory. Paths are
walked one component at a time, so every component but the last must be a
directory that exists.
-/

namespace TypedScript

/-- Names from the root down. -/
abbrev Location := List Text

def Location.step (location : Location) (part : Text) : Location :=
  if part = ['.', '.'] then location.dropLast
  else if part = ['.'] then location
  else location ++ [part]

inductive Entry where
  | file (content : Bytes)
  | directory
  deriving DecidableEq, Repr

structure FileTree where
  entries : List (Location × Entry)
  /-- Where relative paths begin. -/
  home : Location
  deriving DecidableEq, Repr

inductive FileFault where
  | noEntry
  | alreadyExists
  | notDirectory
  | isDirectory
  deriving DecidableEq, Repr

def FileFault.number : FileFault → Nat
  | .noEntry => 2
  | .alreadyExists => 17
  | .notDirectory => 20
  | .isDirectory => 21

def FileFault.message : FileFault → String
  | .noEntry => "No such file or directory"
  | .alreadyExists => "File exists"
  | .notDirectory => "Not a directory"
  | .isDirectory => "Is a directory"

structure FileError where
  fault : FileFault
  path : Text
  deriving DecidableEq, Repr

def FileError.message (e : FileError) : String :=
  s!"[Errno {e.fault.number}] {e.fault.message}: {quoted e.path}"

namespace FileTree

def entry? (tree : FileTree) (location : Location) : Option Entry :=
  if location = [] then some .directory else tree.entries.lookup location

def put (tree : FileTree) (location : Location) (entry : Entry) : FileTree :=
  { tree with entries := (location, entry) :: tree.entries.filter (·.1 != location) }

def erase (tree : FileTree) (location : Location) : FileTree :=
  { tree with entries := tree.entries.filter (·.1 != location) }

/-- Where the walk along a path begins. -/
def base (tree : FileTree) (path : Path) : Location :=
  if path.root = .relative then tree.home else []

/-- The location of a path by its components alone. -/
def resolve (tree : FileTree) (path : Path) : Location :=
  path.parts.foldl Location.step (tree.base path)

/-- Walks down from a location; each place that is left must be a directory. -/
def walk (tree : FileTree) (location : Location) : List Text → Except FileFault Location
  | [] => .ok location
  | part :: rest =>
    match tree.entry? location with
    | none => .error .noEntry
    | some (.file _) => .error .notDirectory
    | some .directory => tree.walk (location.step part) rest

def locate (tree : FileTree) (path : Path) : Except FileFault Location :=
  tree.walk (tree.base path) path.parts

/-- The location of a path and what is there. -/
def inspect (tree : FileTree) (path : Path) : Except FileFault (Location × Option Entry) := do
  let location ← tree.locate path
  return (location, tree.entry? location)

def pathExists (tree : FileTree) (path : Path) : Bool :=
  match tree.inspect path with
  | .ok (_, some _) => true
  | .ok (_, none) | .error _ => false

def isDirectory (tree : FileTree) (path : Path) : Bool :=
  match tree.inspect path with
  | .ok (_, some .directory) => true
  | .ok _ | .error _ => false

def readFile (tree : FileTree) (path : Path) : Except FileFault Bytes := do
  match ← tree.inspect path with
  | (_, none) => .error .noEntry
  | (_, some .directory) => .error .isDirectory
  | (_, some (.file content)) => .ok content

def writeFile (tree : FileTree) (path : Path) (content : Bytes) : Except FileFault FileTree := do
  match ← tree.inspect path with
  | (_, some .directory) => .error .isDirectory
  | (location, _) => .ok (tree.put location (.file content))

def removeFile (tree : FileTree) (path : Path) : Except FileFault FileTree := do
  match ← tree.inspect path with
  | (_, none) => .error .noEntry
  | (_, some .directory) => .error .isDirectory
  | (location, some (.file _)) => .ok (tree.erase location)

def makeDirectory (tree : FileTree) (path : Path) : Except FileFault FileTree := do
  match ← tree.inspect path with
  | (_, some _) => .error .alreadyExists
  | (location, none) => .ok (tree.put location .directory)

/-- Makes one directory, which may be there already. -/
def ensureOne (tree : FileTree) (path : Path) : Except FileError FileTree :=
  match tree.makeDirectory path with
  | .ok made => .ok made
  | .error fault => if tree.isDirectory path then .ok tree else .error ⟨fault, path.text⟩

/-- Makes a directory and those above it, given the components from the last one up. What has
been made stays if a later step fails. -/
def ensureParts (root : PathRoot) (tree : FileTree) :
    (reversed : List Text) → FileTree × Except FileError Unit
  | [] =>
    match tree.ensureOne ⟨root, []⟩ with
    | .ok made => (made, .ok ())
    | .error e => (tree, .error e)
  | part :: above =>
    let path : Path := ⟨root, (part :: above).reverse⟩
    match tree.makeDirectory path with
    | .ok made => (made, .ok ())
    | .error .noEntry =>
      match ensureParts root tree above with
      | (made, .error e) => (made, .error e)
      | (made, .ok ()) =>
        match made.ensureOne path with
        | .ok all => (all, .ok ())
        | .error e => (made, .error e)
    | .error fault =>
      if tree.isDirectory path then (tree, .ok ()) else (tree, .error ⟨fault, path.text⟩)

def ensureDirectory (tree : FileTree) (path : Path) : FileTree × Except FileError Unit :=
  ensureParts path.root tree path.parts.reverse

/-- Files and empty directories below the home, by their components from there. -/
def listing (tree : FileTree) : List (List Text × Entry) :=
  let below := tree.entries.filter fun (location, _) =>
    tree.home.isPrefixOf location && location.length > tree.home.length
  let shown := below.filter fun (location, entry) =>
    entry != .directory || !below.any fun (other, _) =>
      location.isPrefixOf other && other.length > location.length
  shown.map fun (location, entry) => (location.drop tree.home.length, entry)

end FileTree
end TypedScript
