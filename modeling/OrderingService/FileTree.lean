import OrderingService.Path

/-!
# File trees

A small file system: files with contents and directories, named from a working directory. Paths
are walked one component at a time, and every component but the last has to be a directory, so
`a/x/../f` needs a directory `a/x`. Names and paths have a greatest length in bytes; a path that is
too long is refused at once, and a name that is too long when it is looked for.

## Main definitions

* `SystemError` — why the system refuses, with its text
* `FileNode`, `FileTree` — files and directories
* `FileTree.walk`, `FileTree.locate` — the way along a path
* `FileTree.readFile`, `FileTree.isFile`, `FileTree.isDir`, `FileTree.createDirAll`,
  `FileTree.writeFile`
-/

namespace OrderingService

/-- Why the operating system refuses. -/
inductive SystemError where
  | notFound
  | alreadyExists
  | notDirectory
  | isDirectory
  | nameTooLong
  /-- A path holds the byte that ends paths. -/
  | zeroInPath
  | addressInUse
  /-- Any other refusal, with its text. -/
  | other (text : String)
  deriving DecidableEq, Repr

/-- The text of a refusal. -/
def SystemError.message : SystemError → String
  | notFound => "No such file or directory (os error 2)"
  | alreadyExists => "File exists (os error 17)"
  | notDirectory => "Not a directory (os error 20)"
  | isDirectory => "Is a directory (os error 21)"
  | nameTooLong => "File name too long (os error 36)"
  | zeroInPath => "file name contained an unexpected NUL byte"
  | addressInUse => "Address already in use (os error 98)"
  | other text => text

/-- The place of a file or directory: the names on the way from the working directory. Places
above it start with `FileTree.above`, and absolute ones with `FileTree.root`. -/
abbrev Place := List Bytes

/-- A file with its content, or a directory with what it holds by name. -/
inductive FileNode where
  | file (content : Bytes)
  | directory (entries : List (Bytes × FileNode))
  deriving Repr

namespace FileNode

/-- A directory that holds nothing. -/
def empty : FileNode := .directory []

/-- What is held under a name. -/
def child? : FileNode → Bytes → Option FileNode
  | .file _, _ => none
  | .directory entries, name => entries.lookup name

/-- Hold a node under a name. A file holds nothing. -/
def setChild : FileNode → Bytes → FileNode → FileNode
  | .file content, _, _ => .file content
  | .directory entries, name, node =>
    .directory ((name, node) :: entries.filter (·.1 != name))

/-- Put a node at a place below, with directories on the way. -/
def put : FileNode → Place → FileNode → FileNode
  | _, [], node => node
  | top, name :: rest, node =>
    top.setChild name (((top.child? name).getD .empty).put rest node)

end FileNode

/-- Files and directories. The node is the working directory; under two names that no file has it
also holds the directory above it and the root, which are there even if nothing is known of them. -/
structure FileTree where
  top : FileNode := .empty
  deriving Repr

/-- The name of the directory above. -/
def FileTree.above : Bytes := [Path.dot, Path.dot]

/-- The name under which the root is held. -/
def FileTree.root : Bytes := [Path.slash]

/-- A way through a file tree: the names with what is there, innermost first. -/
abbrev Way := List (Bytes × Option FileNode)

/-- The place to which a way leads. -/
def Way.place (way : Way) : Place := (way.map (·.1)).reverse

/-- Go from a directory up to the one that holds it. Nothing is above the root. -/
def Way.up (dir : FileNode) (way : Way) : Way :=
  let further := (FileTree.above, some ((dir.child? FileTree.above).getD .empty)) :: way
  match way with
  | [] => further
  | (name, _) :: rest =>
    if name = FileTree.above then further else if name = FileTree.root then way else rest

/-- Go from a directory to a name. -/
def Way.step (dir : FileNode) (name : Bytes) (way : Way) : Way :=
  if name = FileTree.above then way.up dir else (name, dir.child? name) :: way

namespace FileTree

/-- What is at the end of a way. -/
def reached (t : FileTree) : Way → Option FileNode
  | [] => some t.top
  | (_, node) :: _ => node

/-- The greatest length of a name, in bytes. -/
def nameLimit : Nat := 255

/-- The greatest length of a path, in bytes. -/
def pathLimit : Nat := 4095

/-- Walk names from a directory; each place on the way has to be a directory, and no name there is
longer than the limit. -/
def walk (t : FileTree) : Way → List Bytes → Except SystemError Way
  | way, [] => .ok way
  | way, name :: rest =>
    match t.reached way with
    | none => .error .notFound
    | some (.file _) => .error .notDirectory
    | some dir =>
      if nameLimit < name.length then .error .nameTooLong
      else t.walk (way.step dir name) rest

/-- The names of a path. -/
def names (path : Path) : List Bytes :=
  path.parts.filter fun name => name ≠ [] && name ≠ [Path.dot]

/-- Whether a path can only name a directory: it ends in a slash or a dot. -/
def wantsDirectory (path : Path) : Bool :=
  match path.parts.getLast? with
  | some last => last = [] || last = [Path.dot]
  | none => false

/-- The way to what a path names. The empty path names nothing. -/
def locate (t : FileTree) (path : Path) : Except SystemError Way := do
  if path.bytes.contains 0 then throw .zeroInPath
  if path.bytes = [] then throw .notFound
  if pathLimit < path.bytes.length then throw .nameTooLong
  let start := if path.isAbsolute then [(root, some ((t.top.child? root).getD .empty))] else []
  t.walk start (names path)

/-- What a path names. -/
def lookup (t : FileTree) (path : Path) : Except SystemError FileNode := do
  match t.reached (← t.locate path) with
  | none => throw .notFound
  | some (.file content) =>
    if wantsDirectory path then throw .notDirectory else return .file content
  | some dir => return dir

/-- The content of a file. -/
def readFile (t : FileTree) (path : Path) : Except SystemError Bytes := do
  match ← t.lookup path with
  | .file content => return content
  | .directory _ => throw .isDirectory

/-- Whether a path names a file. -/
def isFile (t : FileTree) (path : Path) : Bool :=
  match t.lookup path with
  | .ok (.file _) => true
  | _ => false

/-- Whether a path names a directory. -/
def isDir (t : FileTree) (path : Path) : Bool :=
  match t.lookup path with
  | .ok (.directory _) => true
  | _ => false

/-- Whether the last component of a path is a dot, which names a directory that is there. -/
def endsInDot (path : Path) : Bool :=
  (path.parts.filter (· ≠ [])).getLast? = some [Path.dot]

/-- Make one directory. Its parent has to be there, and nothing at its own place. -/
def createDir (t : FileTree) (path : Path) : Except SystemError FileTree := do
  let way ← t.locate path
  match t.reached way with
  | some (.file _) => throw (if endsInDot path then .notDirectory else .alreadyExists)
  | some (.directory _) => throw .alreadyExists
  | none =>
    if endsInDot path then throw .notFound else return ⟨t.top.put way.place .empty⟩

/-- Make a directory unless it is there. -/
def ensureDir (t : FileTree) (path : Path) : Except SystemError FileTree :=
  match t.createDir path with
  | .ok t => .ok t
  | .error e => if t.isDir path then .ok t else .error e

/-- Make a directory and those above it that are missing, `bound` of them at most. -/
def createDirs (t : FileTree) : (bound : Nat) → (path : Path) → FileTree × Except SystemError Unit
  | 0, _ => (t, .ok ())
  | bound + 1, path =>
    if path.bytes = [] then (t, .ok ())
    else match t.ensureDir path with
      | .ok t => (t, .ok ())
      | .error .notFound =>
        match path.parent? with
        | none => (t, .error .notFound)
        | some parent =>
          match t.createDirs bound parent with
          | (t, .error e) => (t, .error e)
          | (t, .ok ()) =>
            match t.ensureDir path with
            | .ok t => (t, .ok ())
            | .error e => (t, .error e)
      | .error e => (t, .error e)

/-- Make a directory and those above it that are missing. The empty path needs none. -/
def createDirAll (t : FileTree) (path : Path) : FileTree × Except SystemError Unit :=
  t.createDirs (path.bytes.length + 1) path

/-- Write a file, with directories on the way. When the way leads through a file, or to a
directory, there is none. -/
def writeFile (t : FileTree) (path : Path) (content : Bytes) : FileTree :=
  let t := (t.createDirAll (path.parent?.getD ⟨[]⟩)).1
  match t.locate path with
  | .ok way => if t.isDir path then t else ⟨t.top.put way.place (.file content)⟩
  | .error _ => t

end FileTree

end OrderingService
