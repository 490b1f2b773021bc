import Smpl.FileTree
import Smpl.Sha256

/-!
# Checksums of packages

The checksum of a directory is the hash of its files in order: for each the path from the directory
on, and then its contents. Directories named `.git` do not count.
-/

namespace Smpl.Package

/-- The directories that do not count. -/
def isHidden (name : String) : Bool := name = ".git"

/-- The path of a file from the directory on; the directory itself is a dot. -/
def relativePath (names : List String) : String :=
  if names.isEmpty then "." else "/".intercalate names

/-- The bytes that the checksum of a tree is made of. -/
def hashInput (tree : FileTree) : ByteArray :=
  (tree.files isHidden).foldl (fun bytes (names, contents) =>
    bytes ++ (relativePath names).toUTF8 ++ contents) ByteArray.empty

/-- The checksum of the tree at a path. -/
def checksum (path : String) (tree : FileTree) : String :=
  let input := if tree.isDirectory && isHidden (Path.base path) then ByteArray.empty
    else hashInput tree
  "sha256:" ++ (Sha256.digest input).hex

end Smpl.Package
