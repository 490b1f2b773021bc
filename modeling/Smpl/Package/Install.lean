import Smpl.Package.Checksum
import Smpl.Package.Loading

/-!
# Installing dependencies

Installing resolves every dependency of a manifest, and theirs, to a locked package, and brings the
lockfile up to date with exactly those packages. If one cannot be resolved the lockfile stays as it
is.

The sources of a repository dependency are looked for in the cache, under the revision that is asked
for. Sources that are not there have to be cloned, and what a clone gives is decided outside of this
library; here such a repository counts as one that is not found.
-/

namespace Smpl.Package

/-- Why a dependency cannot be installed. -/
inductive InstallError where
  | cycle (name : String)
  | file (name : String) (cause : FileError)
  | notDirectory (name dir : String)
  | noUrl (name : String)
  | noHome (name : String)
  | noRevision (name : String)
  | notFound (name url : String)
  | manifest (name : String) (cause : ManifestError)
  /-- The bound on the depth is reached. -/
  | tooDeep

/-- The message of an error. -/
def InstallError.message : InstallError → String
  | .cycle name => "dependency cycle detected at " ++ name
  | .file name cause => "dependency " ++ Text.quote name ++ ": " ++ cause.message
  | .notDirectory name dir =>
    "dependency " ++ Text.quote name ++ ": " ++ dir ++ " is not a directory"
  | .noUrl name => "dependency " ++ Text.quote name ++ ": git URL required"
  | .noHome name => "dependency " ++ Text.quote name ++ ": SMPL_HOME is not set"
  | .noRevision name => "dependency " ++ Text.quote name ++ ": " ++ noRevisionMessage
  | .notFound name url =>
    "dependency " ++ Text.quote name ++ ": git clone " ++ url ++ ": repository not found"
  | .manifest name cause => "dependency " ++ Text.quote name ++ ": " ++ cause.message
  | .tooDeep => "dependencies are nested too deeply"

/-- A resolved package and the directory of its sources. -/
structure Fetched where
  package : LockedPackage
  dir : String
  deriving DecidableEq, Repr

/-- Where a resolved package is. -/
def Fetched.placed (f : Fetched) : Placed := ⟨f.package.name, f.dir⟩

/-! ## Finding a dependency -/

/-- A step of finding a dependency: it sees the files, and may make directories. -/
abbrev Finding := EStateM InstallError FileTree

/-- Ends with the outcome of a pure operation. -/
def Finding.lift {α : Type} : Except InstallError α → Finding α
  | .ok a => pure a
  | .error e => throw e

/-- The version of a package that declares none. -/
def defaultVersion : String := "0.0.0"

/-- The version that a manifest declares; the default one if it declares none or cannot be loaded. -/
def declaredVersion : Except ManifestError Manifest → String
  | .ok m => if m.version = "" then defaultVersion else m.version
  | .error _ => defaultVersion

/-- Fetches a dependency from a local path. -/
def fetchPath (draws : Draws) (files : FileTree) (cwd : String) (parent : Manifest) (name : String)
    (source : Source) : Except InstallError Fetched := do
  let dir := parent.resolve source.path
  let tree ← (files.stat dir).mapError (.file name)
  if !tree.isDirectory then .error (.notDirectory name dir)
  else
    let read := Manifest.loadFrom (draws (.version name)) files cwd (Path.join [dir, manifestName])
    pure
      { package :=
          { name := name, version := declaredVersion read, source := "path+" ++ source.path,
            checksum := checksum dir tree }
        dir := dir }

/-- The package of a source in the cache of repositories: its revision must be there. -/
def cachedPackage (files : FileTree) (cwd home name versions : String) (source : Source) :
    Except InstallError Fetched :=
  let url := Text.trim source.git
  match source.revision? with
  | none => .error (.noRevision name)
  | some _ =>
    let rev := Text.trim source.rev
    let version := pathSegment rev
    let cached := if rev = "" then none
      else (files.get (Path.absolute cwd (Path.join [versions, version]))).toOption
    match cached with
    | none => .error (.notFound name url)
    | some tree =>
      let dir := cacheDir home name version
      .ok
        { package :=
            { name := name, version := version, source := "git+" ++ url ++ "@" ++ rev,
              checksum := checksum dir tree }
          dir := dir }

/-- Fetches a dependency from the cache of repositories. The directory of its versions is made in
any case. -/
def fetchCached (cwd home name : String) (source : Source) : Finding Fetched := do
  if Text.trim source.git = "" then throw (.noUrl name)
  else if home = "" then throw (.noHome name)
  else
    let versions := Path.dir (cacheDir home name "x")
    let files ← Finding.lift
      (((← get).mkdirAll (Path.absolute cwd versions)).mapError (.file name))
    set files
    Finding.lift (cachedPackage files cwd home name versions source)

/-- Fetches a dependency of `parent`, without the names of its own dependencies. -/
def fetch (draws : Draws) (cwd home : String) (parent : Manifest) (name : String) (source : Source) :
    Finding Fetched := do
  if source.path ≠ "" then Finding.lift (fetchPath draws (← get) cwd parent name source)
  else fetchCached cwd home name source

/-- Finds a dependency of `parent`: its package, and the manifest in its directory. -/
def locate (draws : Draws) (cwd home : String) (parent : Manifest) (name : String) (source : Source) :
    Finding (Fetched × Manifest) := do
  let fetched ← fetch draws cwd home parent name source
  let read := Manifest.loadFrom (draws (.dependencies name)) (← get) cwd
    (Path.join [fetched.dir, manifestName])
  let m ← Finding.lift (read.mapError (.manifest name))
  pure ({ fetched with package.dependencies := m.dependencies.names }, m)

/-! ## Resolving all dependencies -/

/-- The state of installing: the files, the lockfile, and the packages resolved so far, in order. -/
structure InstallState where
  files : FileTree
  lock : Lockfile := {}
  settled : List Fetched := []

namespace InstallState

/-- The packages resolved so far, by name. -/
def resolved (s : InstallState) : Table LockedPackage :=
  Table.ofEntries (s.settled.map fun f => (f.package.name, f.package))

/-- The lines that report what was resolved. -/
def report (s : InstallState) : List String :=
  s.settled.map fun f =>
    "Resolved " ++ f.package.name ++ " " ++ f.package.version ++ " (" ++ f.package.source ++ ")"

/-- The log of what was resolved. -/
def log (s : InstallState) : List LogLine :=
  s.settled.map fun f =>
    ⟨.info, "deps: resolved " ++ f.package.name ++ " " ++ f.package.version ++ " from " ++ f.dir⟩

end InstallState

/-- A step of installing. -/
abbrev Installing := EStateM InstallError InstallState

/-- Does something to the files. -/
def Installing.onFiles {α : Type} (action : Finding α) : Installing α := fun s =>
  match action s.files with
  | .ok a files => .ok a { s with files := files }
  | .error e files => .error e { s with files := files }

/-- Resolves dependencies in order. -/
def resolveAll (resolve : String → Source → Installing Unit) :
    List (String × Source) → Installing Unit
  | [] => pure ()
  | (name, source) :: rest => do
    resolve name source
    resolveAll resolve rest

/-- Resolves a dependency of `parent`, after its own dependencies. -/
def resolveDependency (draws : Draws) (cwd home : String) :
    Nat → List String → Manifest → String → Source → Installing Unit
  | 0, _, _, _, _ => throw .tooDeep
  | depth + 1, trail, parent, name, source => do
    if (← get).settled.any (·.package.name = name) then pure ()
    else if trail.contains name then throw (.cycle name)
    else
      let (fetched, m) ← Installing.onFiles (locate draws cwd home parent name source)
      resolveAll (resolveDependency draws cwd home depth (trail ++ [name]) m) m.dependencies
      modify fun s => { s with settled := s.settled ++ [fetched] }

/-- Resolves all dependencies of a manifest. -/
def resolveDependencies (draws : Draws) (cwd home : String) (m : Manifest) : Installing Unit := do
  let depth := nameBound (← get).files m
  resolveAll (resolveDependency draws cwd home depth [] m) m.dependencies

/-! ## Installing -/

/-- Brings a lockfile up to date with resolved packages. Tells whether that changes anything. -/
def Lockfile.update (l : Lockfile) (resolved : Table LockedPackage) : Bool × Lockfile :=
  let (changed, l) := resolved.foldl (fun (changed, l) (_, package) =>
    let (c, l) := l.upsert package
    (changed || c, l)) (false, l)
  let (removed, l) := l.retain resolved.names
  (changed || removed, l)

/-- Installs the dependencies of a manifest into the lockfile. Tells whether that changes its
packages. -/
def install (draws : Draws) (cwd home : String) (m : Manifest) : Installing Bool := do
  resolveDependencies draws cwd home m
  modifyGet fun s =>
    let (changed, lock) := s.lock.update s.resolved
    (changed, { s with lock := lock })

end Smpl.Package
