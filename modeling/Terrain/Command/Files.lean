/-!
# Files

Commands reach files through three operations, so that they run on the files of a machine as well as
on files that are only described.

* `Files` — the operations, in any monad.
* `FileTree` — files and folders as a value; `FileTree.files` are the operations on it.
-/

namespace Terrain

/-- Why the system refuses an operation. -/
inductive Refusal where
  | missing
  | alreadyExists
  | notFolder
  | isFolder
  | other (text : String)
  deriving Repr, DecidableEq

/-- The system's own words. -/
def Refusal.describe : Refusal → String
  | .missing => "No such file or directory (os error 2)"
  | .alreadyExists => "File exists (os error 17)"
  | .notFolder => "Not a directory (os error 20)"
  | .isFolder => "Is a directory (os error 21)"
  | .other text => text

/-- Operations on files, which are named by paths. -/
structure Files (m : Type → Type) where
  /-- Text of a file; `none` for something that can be opened and holds no text. -/
  read : String → m (Except Refusal (Option String))
  /-- Makes a folder, and the folders around it, unless it is there. -/
  makeFolder : String → m (Except Refusal Unit)
  /-- Writes a text to a new file, or in place of the text of an old one. -/
  write : String → String → m (Except Refusal Unit)

/-- The path of a name inside a folder. A name that starts at the root is a path of its own. -/
def pathInside (folder name : String) : String :=
  if name.startsWith "/" then name
  else if folder.isEmpty || folder.endsWith "/" then folder ++ name
  else folder ++ "/" ++ name

/-! ## Files as a value -/

/-- Names from the root to a file or folder. -/
abbrev Path := List String

/-- Files with their texts, and folders. Folders around a file need not be listed. -/
structure FileTree where
  texts : List (Path × String)
  folders : List Path

namespace FileTree

/-- What a path leads to. -/
inductive Node where
  | file (text : String)
  | folder

/-- Names of a written path. Empty names and single dots lead nowhere. -/
def namesOf (path : String) : Path :=
  (path.splitOn "/").filter fun name => name ≠ "" && name ≠ "."

/-- The folder one name further; two dots lead back. -/
def descend (here : Path) (name : String) : Path :=
  if name = ".." then here.dropLast else here ++ [name]

/-- Whether some file lies inside a path. -/
def holdsFiles (tree : FileTree) (path : Path) : Bool :=
  tree.texts.any fun (file, _) => path.length < file.length && path.isPrefixOf file

def node? (tree : FileTree) (path : Path) : Option Node :=
  match tree.texts.lookup path with
  | some text => some (.file text)
  | none =>
    if path.isEmpty || tree.folders.contains path || tree.holdsFiles path then some .folder
    else none

/-- Follows names from a folder. All but the last must be folders. -/
def follow (tree : FileTree) : Path → List String → Except Refusal Path
  | here, [] => .ok here
  | here, name :: rest =>
    match tree.node? here with
    | some .folder => follow tree (descend here name) rest
    | some (.file _) => .error .notFolder
    | none => .error .missing

def read (tree : FileTree) (path : String) : Except Refusal (Option String) := do
  match tree.node? (← tree.follow [] (namesOf path)) with
  | some (.file text) => return some text
  | some .folder => return none
  | none => throw .missing

/-- Makes the folders that names lead through. -/
def makeFolders (tree : FileTree) : Path → List String → Except Refusal FileTree
  | _, [] => .ok tree
  | here, name :: rest =>
    let next := descend here name
    match tree.node? next with
    | some .folder => makeFolders tree next rest
    | some (.file _) => .error (if rest.isEmpty then .alreadyExists else .notFolder)
    | none => makeFolders { tree with folders := next :: tree.folders } next rest

def write (tree : FileTree) (path text : String) : Except Refusal FileTree := do
  let place ← tree.follow [] (namesOf path)
  match tree.node? place with
  | some .folder => throw .isFolder
  | _ =>
    let others := tree.texts.filter fun (other, _) => other != place
    return { tree with texts := others ++ [(place, text)] }

/-- A new tree as the state, or a refusal that leaves the old one. -/
def update (f : FileTree → Except Refusal FileTree) : StateM FileTree (Except Refusal Unit) :=
  fun tree =>
    match f tree with
    | .ok tree => (.ok (), tree)
    | .error refusal => (.error refusal, tree)

/-- The operations on a tree. -/
def files : Files (StateM FileTree) where
  read path := fun tree => (tree.read path, tree)
  makeFolder path := update (·.makeFolders [] (namesOf path))
  write path text := update (·.write path text)

end FileTree

end Terrain
