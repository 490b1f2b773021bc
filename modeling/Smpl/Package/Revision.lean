import Smpl.Package.Manifest

/-!
# Revisions

The sources of a repository dependency are kept in a cache, under the name of the package and a
version that tells which revision they are.
-/

namespace Smpl.Package

/-- A revision of a repository: how it is asked for, and how it was described. -/
structure Revision where
  reference : String
  description : String
  deriving DecidableEq, Repr

/-- The message for a repository without a revision. -/
def noRevisionMessage : String := "git dependencies require rev, tag, or branch"

/-- The revision that a source asks for: its revision before its tag, and that before its branch. -/
def Source.revision? (s : Source) : Option Revision :=
  let rev := Text.trim s.rev
  let tag := Text.trim s.tag
  let branch := Text.trim s.branch
  if rev ≠ "" then some ⟨rev, rev⟩
  else if tag ≠ "" then some ⟨"refs/tags/" ++ tag, tag⟩
  else if branch ≠ "" then some ⟨"refs/remotes/origin/" ++ branch, branch⟩
  else none

/-- The version of a commit that was asked for by a description. -/
def pinnedVersion (description commit : String) : String :=
  if description = "" ∨ description = commit then commit else description ++ "@" ++ commit

/-- A character that may stand in the name of a cache directory. -/
def isSegmentChar (c : Char) : Bool := c.isAlphanum || c = '.' || c = '-' || c = '_'

/-- A text as the name of a cache directory. -/
def pathSegment (text : String) : String :=
  match Text.trimChars text.toList with
  | [] => "head"
  | cs => String.ofList (cs.map fun c => if isSegmentChar c then c else '_')

/-- The cache directory of a version of a package. -/
def cacheDir (home name version : String) : String :=
  Path.join [home, "pkg", "src", standardName name, version]

end Smpl.Package
