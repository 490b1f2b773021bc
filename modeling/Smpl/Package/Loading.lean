import Smpl.Machine.Run
import Smpl.Package.Lockfile
import Smpl.Package.Revision
import Smpl.Program.Decode

/-!
# Loading packages

To run a program of a package, its modules are put in order: the preludes of every dependency, each
after those of its own dependencies, then the preludes of the package, and last the entry program.

Dependencies are visited in the order of their names. A name that is done is not visited again; a
name that is met while it is being visited is a cycle. The path of names being visited (`trail`)
therefore never repeats a name, and there are no more names than the manifest files of the file tree
hold (`nameBound`): that bounds the depth.
-/

namespace Smpl.Package

/-- Why a program or a package cannot be loaded. -/
inductive LoadError where
  | unreadable (path : String) (cause : FileError)
  | undecodable (path : String) (cause : DecodeError)
  /-- Neither the caller nor the manifest names an entry program. -/
  | noEntry
  /-- A dependency depends on itself, along a path of names. -/
  | cycle (trail : List String)
  | noManifest (name dir : String)
  | manifest (cause : ManifestError)
  | notInstalled (name : String)
  | noHome (name : String)
  /-- The bound on the depth is reached. -/
  | tooDeep

namespace LoadError

/-- The message of an error. -/
def message : LoadError → String
  | .unreadable path cause => "loader: read " ++ path ++ ": " ++ cause.message
  | .undecodable path cause => "loader: " ++ path ++ ": " ++ cause.message
  | .noEntry => "loader: no entry program given and manifest declares none"
  | .cycle trail => "loader: dependency cycle " ++ " -> ".intercalate trail
  | .noManifest name dir =>
    "loader: dependency " ++ name ++ " has no " ++ manifestName ++ " in " ++ dir
  | .manifest cause => cause.message
  | .notInstalled name =>
    "loader: dependency " ++ name ++ " is not installed (run `smpl deps install`)"
  | .noHome name => "loader: dependency " ++ name ++ " needs SMPL_HOME to locate its sources"
  | .tooDeep => "loader: dependencies are nested too deeply"

end LoadError

/-- The files, the working directory and what is drawn. -/
structure Workspace where
  files : FileTree
  cwd : String
  draws : Draws := .asWritten

/-- A dependency and the directory of its sources. -/
structure Placed where
  name : String
  dir : String
  deriving DecidableEq, Repr

/-- The state of loading: the log, the dependencies that are done in the order in which they were
finished, and the modules so far. -/
structure LoadState where
  log : Array LogLine := #[]
  done : List Placed := []
  modules : List Module := []

/-- A step of loading. -/
abbrev Loading := EStateM LoadError LoadState

/-- Adds a log line. -/
def Loading.note (text : String) : Loading Unit :=
  modify fun s => { s with log := s.log.push ⟨.verbose, text⟩ }

/-- Ends with the outcome of a pure operation. -/
def Loading.lift {α : Type} : Except LoadError α → Loading α
  | .ok a => pure a
  | .error e => throw e

/-- The text of a program file; bytes that are no text are no program. -/
def decodeProgram (contents : ByteArray) : Except DecodeError Program :=
  match String.fromUTF8? contents with
  | some text => Program.decode text
  | none => .error .malformed

/-- The name of the module of a path: the name of the file without its extension. -/
def moduleName (path : String) : String :=
  let name := Path.base path
  String.ofList (name.toList.take (name.length - (Path.ext path).length))

/-- Loads one program file. -/
def loadModule (w : Workspace) (path : String) : Loading Module := do
  let path := Path.absolute w.cwd path
  let contents ← Loading.lift ((w.files.read path).mapError (.unreadable path))
  let program ← Loading.lift ((decodeProgram contents).mapError (.undecodable path))
  Loading.note ("loader: decoded " ++ path ++ " (" ++ toString program.statements.length ++
    " statements)")
  pure ⟨moduleName path, path, some program⟩

/-- Loads a program file as a module of a package. -/
def loadMember (w : Workspace) (owner : Manifest) (path : String) : Loading Module := do
  let m ← loadModule w path
  pure { m with name := owner.name ++ "/" ++ m.name }

/-- Loads the preludes of a package behind the modules so far. -/
def loadPreludes (w : Workspace) (owner : Manifest) : List String → Loading Unit
  | [] => pure ()
  | path :: rest => do
    let m ← loadMember w owner path
    modify fun s => { s with modules := s.modules ++ [m] }
    loadPreludes w owner rest

/-- Where dependencies are found: the cache of repositories and what was installed there. -/
structure Store where
  home : String
  lock : Option Lockfile

/-- The directory of a dependency. -/
def Store.dirOf (store : Store) (parent : Manifest) (name : String) (source : Source) :
    Except LoadError String :=
  if source.path ≠ "" then .ok (parent.resolve source.path)
  else
    match store.lock.bind (·.find? name) with
    | none => .error (.notInstalled name)
    | some locked =>
      if locked.version = "" then .error (.notInstalled name)
      else if store.home = "" then .error (.noHome name)
      else .ok (cacheDir store.home name locked.version)

/-- Loads the manifest of the dependency in a directory. -/
def loadDependency (w : Workspace) (name dir : String) : Except LoadError Manifest :=
  let read := Manifest.loadFrom (w.draws (.dependencies name)) w.files w.cwd
    (Path.join [dir, manifestName])
  read.mapError fun e => if e.isMissing then .noManifest name dir else .manifest e

/-- Visits dependencies in order. -/
def visitAll (visit : String → Source → Loading Unit) : List (String × Source) → Loading Unit
  | [] => pure ()
  | (name, source) :: rest => do
    visit name source
    visitAll visit rest

/-- Visits a dependency of `parent`: its own dependencies first, then its preludes. -/
def visit (w : Workspace) (store : Store) :
    Nat → List String → Manifest → String → Source → Loading Unit
  | 0, _, _, _, _ => throw .tooDeep
  | depth + 1, trail, parent, name, source => do
    if (← get).done.any (·.name = name) then pure ()
    else if trail.contains name then throw (.cycle (trail ++ [name]))
    else
      let dir ← Loading.lift (store.dirOf parent name source)
      let m ← Loading.lift (loadDependency w name dir)
      Loading.note ("loader: dependency " ++ name ++ " resolved to " ++ dir)
      visitAll (visit w store depth (trail ++ [name]) m) m.dependencies
      loadPreludes w m m.preludePaths
      modify fun s => { s with done := s.done ++ [⟨name, dir⟩] }

/-- The manifest files of a file tree that can be read, whether they are valid or not. -/
def manifestFilesIn (files : FileTree) : List ManifestFile :=
  (files.files fun _ => false).filterMap fun (names, contents) =>
    if names.getLast? = some manifestName then
      (String.fromUTF8? contents).bind fun text =>
        (Yaml.RecordType.readText manifestType text {}).toOption
    else none

/-- A bound for the number of names that a walk from a manifest meets, and one more. -/
def nameBound (files : FileTree) (m : Manifest) : Nat :=
  (manifestFilesIn files).foldl (fun n f => n + f.dependencies.length) (m.dependencies.length + 1)

/-- Visits all dependencies of a manifest. -/
def visitDependencies (w : Workspace) (store : Store) (m : Manifest) : Loading Unit :=
  visitAll (visit w store (nameBound w.files m) [] m) m.dependencies

/-- Loads the modules of a package and its entry program, which is the last one. Without a path for
it the entry of the manifest is meant; without a manifest the entry is loaded alone. -/
def loadPackage (w : Workspace) (store : Store) (manifest : Option Manifest) (entry : String) :
    Loading Bundle := do
  let entry := if entry = "" then (manifest.map Manifest.entryPath).getD "" else entry
  if entry = "" then throw .noEntry
  else
    let last ← match manifest with
      | none => loadModule w entry
      | some m => do
        visitDependencies w store m
        loadPreludes w m m.preludePaths
        loadMember w m entry
    let modules := (← get).modules ++ [last]
    pure { modules := modules.map some, entry := some (.position (modules.length - 1)) }

end Smpl.Package
