import Smpl.Path
import Smpl.Table

/-!
# Files

A file tree is a file or a directory of named trees. A path leads from the root through the names
between its slashes, one after the other; `..` leads back. Every name, even an empty one, needs a
directory to be looked up in.

The entries of a directory are kept in the order of their names.
-/

namespace Smpl

/-- A file or a directory. -/
inductive FileTree where
  | file (contents : ByteArray)
  | directory (entries : List (String × FileTree))
  deriving Inhabited

/-- Why a file cannot be reached. -/
inductive FileFault where
  | missing
  | notDirectory
  | isDirectory
  deriving DecidableEq, Repr

/-- The words for a fault. -/
def FileFault.text : FileFault → String
  | .missing => "no such file or directory"
  | .notDirectory => "not a directory"
  | .isDirectory => "is a directory"

/-- An operation on a path that failed. -/
structure FileError where
  operation : String
  path : String
  fault : FileFault
  deriving DecidableEq, Repr

/-- The message of a failed operation. -/
def FileError.message (e : FileError) : String :=
  e.operation ++ " " ++ e.path ++ ": " ++ e.fault.text

namespace FileTree

/-- A tree without files. -/
def bare : FileTree := .directory []

/-- Whether a tree is a directory. -/
def isDirectory : FileTree → Bool
  | .file _ => false
  | .directory _ => true

/-- The tree that names lead to; `above` are the directories on the way, innermost first. -/
def walk : List FileTree → FileTree → List String → Except FileFault FileTree
  | _, tree, [] => .ok tree
  | _, .file _, _ :: _ => .error .notDirectory
  | above, .directory entries, name :: rest =>
    if name = "" ∨ name = "." then walk above (.directory entries) rest
    else if name = ".." then
      match above with
      | [] => walk [] (.directory entries) rest
      | parent :: further => walk further parent rest
    else
      match Table.get? name entries with
      | some tree => walk (.directory entries :: above) tree rest
      | none => .error .missing

/-- The names of a path. -/
def pathNames (path : String) : List String := (Path.names path.toList).map String.ofList

/-- The tree that an absolute path leads to. -/
def get (root : FileTree) (path : String) : Except FileFault FileTree :=
  walk [] root (pathNames path)

/-- Looks at what an absolute path leads to. -/
def stat (root : FileTree) (path : String) : Except FileError FileTree :=
  (root.get path).mapError fun fault => ⟨"stat", path, fault⟩

/-- Opens what an absolute path leads to. -/
def openAt (root : FileTree) (path : String) : Except FileError FileTree :=
  (root.get path).mapError fun fault => ⟨"open", path, fault⟩

/-- The contents of the file that an absolute path leads to. -/
def read (root : FileTree) (path : String) : Except FileError ByteArray := do
  match ← root.openAt path with
  | .file contents => pure contents
  | .directory _ => .error ⟨"read", path, .isDirectory⟩

/-- Changes the tree at the end of some names by `change`, which gets nothing where there is no
tree. -/
def update (change : Option FileTree → Except FileFault FileTree) :
    FileTree → List String → Except FileFault FileTree
  | tree, [] => change (some tree)
  | .file _, _ :: _ => .error .notDirectory
  | .directory entries, [name] => do
    pure (.directory (Table.set name (← change (Table.get? name entries)) entries))
  | .directory entries, name :: rest =>
    match Table.get? name entries with
    | none => .error .missing
    | some tree => do pure (.directory (Table.set name (← update change tree rest) entries))

/-- The names of a path in its shortest form. -/
def cleanNames (path : String) : List String := (Path.cleanNames path).map String.ofList

/-- Writes a file, anew or in place of an old one. -/
def write (root : FileTree) (path : String) (contents : ByteArray) : Except FileError FileTree :=
  let replace : Option FileTree → Except FileFault FileTree
    | some (.directory _) => .error .isDirectory
    | _ => .ok (.file contents)
  (update replace root (cleanNames path)).mapError fun fault => ⟨"open", path, fault⟩

/-- A chain of directories. -/
def chain : List String → FileTree
  | [] => .directory []
  | name :: rest => .directory [(name, chain rest)]

/-- Makes a directory and those on the way to it. Where a file is in the way, the number of names
that lead to it is the error. -/
def makeDirectories : FileTree → List String → Except Nat FileTree
  | .file _, _ => .error 0
  | tree, [] => .ok tree
  | .directory entries, name :: rest =>
    match Table.get? name entries with
    | none => .ok (.directory (Table.set name (chain rest) entries))
    | some tree =>
      match makeDirectories tree rest with
      | .ok tree' => .ok (.directory (Table.replace name tree' entries))
      | .error n => .error (n + 1)

/-- Makes the directory of an absolute path and those on the way to it. -/
def mkdirAll (root : FileTree) (path : String) : Except FileError FileTree :=
  let names := Path.cleanNames path
  (makeDirectories root (names.map String.ofList)).mapError fun n =>
    ⟨"mkdir", Path.ofNames true (names.take n), .notDirectory⟩

/-- Takes away what names lead to, if there is something. -/
def removeNames : FileTree → List String → FileTree
  | tree, [] => tree
  | .file contents, _ => .file contents
  | .directory entries, [name] => .directory (Table.erase name entries)
  | .directory entries, name :: rest =>
    match Table.get? name entries with
    | none => .directory entries
    | some tree => .directory (Table.set name (removeNames tree rest) entries)

/-- Takes away what a path leads to, if there is something. -/
def remove (root : FileTree) (path : String) : FileTree := root.removeNames (cleanNames path)

/-- Puts a tree at the end of some names, with directories on the way; files in the way give way. -/
def graft (tree : FileTree) : FileTree → List String → FileTree
  | _, [] => tree
  | .file _, names => names.foldr (fun name below => .directory [(name, below)]) tree
  | .directory entries, name :: rest =>
    .directory (Table.set name (graft tree ((Table.get? name entries).getD bare) rest) entries)

/-! ## All files of a tree -/

mutual

/-- The files of a tree in order, each with its path from the root of the tree. Directories of the
names that `skips` accepts are left out. -/
def filesIn (skips : String → Bool) (here : List String) :
    FileTree → List (List String × ByteArray)
  | .file contents => [(here, contents)]
  | .directory entries => filesInEntries skips here entries

/-- The files of the entries of a directory. -/
def filesInEntries (skips : String → Bool) (here : List String) :
    List (String × FileTree) → List (List String × ByteArray)
  | [] => []
  | (name, tree) :: rest =>
    (if tree.isDirectory && skips name then [] else filesIn skips (here ++ [name]) tree) ++
      filesInEntries skips here rest

end

/-- The files of a tree in order, apart from those in directories of certain names. -/
def files (skips : String → Bool) (tree : FileTree) : List (List String × ByteArray) :=
  tree.filesIn skips []

/-! ## What has changed -/

/-- A change to files. -/
inductive Change where
  | makeDirectory (names : List String)
  | writeFile (names : List String) (contents : ByteArray)

mutual

/-- What has to be done for a tree to become another one, in order; nothing is taken away. -/
def changes (here : List String) (before : Option FileTree) : FileTree → List Change
  | .file contents =>
    match before with
    | some (.file old) => if old = contents then [] else [.writeFile here contents]
    | _ => [.writeFile here contents]
  | .directory entries =>
    match before with
    | some (.directory old) => changesInEntries here old entries
    | _ => .makeDirectory here :: changesInEntries here [] entries

/-- What has to be done for the entries of a directory. -/
def changesInEntries (here : List String) (before : List (String × FileTree)) :
    List (String × FileTree) → List Change
  | [] => []
  | (name, tree) :: rest =>
    changes (here ++ [name]) (Table.get? name before) tree ++ changesInEntries here before rest

end

end FileTree

end Smpl
