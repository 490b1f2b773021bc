import Smpl.CommandLine

/-!
# Which files a command looks at

A command sees files only through a file tree. `wanted` names the paths that such a tree has to
cover, given what is known of the files so far; a tree that covers all of them is good for the
command.

These are the places of manifests around the program or the working directory and, for each manifest
that is known, its lockfile, its programs and the directories of its dependencies.
-/

namespace Smpl.CommandLine

open Package

/-- The program that the arguments name, if they name one. -/
def programArgument (arguments : List String) : Option String :=
  match (verbosity .warning arguments).2 with
  | [] => none
  | "run" :: path :: _ => some (Text.trim path)
  | command :: _ => if command ∈ ["run", "deps"] then none else some (Text.trim command)

/-- Whether a command runs a program, which may read input. -/
def readsInput (arguments : List String) : Bool :=
  match (verbosity .warning arguments).2 with
  | [] => false
  | command :: _ =>
    command ∉ ["--help", "-h", "help", "--version", "-V", "version", "deps"]

/-- The places of manifests from a path on. -/
def manifestPlaces (path : String) : List String :=
  (Path.upward path).map fun dir => Path.join [dir, manifestName]

/-- The paths that the manifest file of a path refers to, whatever is drawn when it is loaded. -/
def referredPaths (home path : String) (file : ManifestFile) : List String :=
  let m := file.toManifest path
  lockfilePath m :: m.entryPath :: m.preludePaths ++
    file.dependencies.map fun (name, source) =>
      if source.path ≠ "" then m.resolve source.path
      else Path.dir (cacheDir home (standardName name) "x")

/-- The manifest files that are known, with their paths. -/
def knownManifests (files : FileTree) : List (String × ManifestFile) :=
  (files.files fun _ => false).filterMap fun (names, contents) =>
    if names.getLast? = some manifestName then do
      let text ← String.fromUTF8? contents
      let file ← (Yaml.RecordType.readText manifestType text {}).toOption
      pure ("/" ++ "/".intercalate names, file)
    else none

/-- The absolute paths that a command looks at, as far as is known. -/
def wanted (env : Environment) (arguments : List String) : List String :=
  let home := (resolveHome env).toOption.getD ""
  let program := match programArgument arguments with
    | some path => [Path.absolute env.cwd path]
    | none => []
  let places := (env.cwd :: program).flatMap manifestPlaces
  let referred := (knownManifests env.files).flatMap fun (path, file) => referredPaths home path file
  (program ++ places ++ referred).filter (· ≠ "")

end Smpl.CommandLine
