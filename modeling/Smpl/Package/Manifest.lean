import Smpl.FileTree
import Smpl.Text.Space
import Smpl.Yaml.Reading

/-!
# Manifests

A package is a directory with a manifest, `package.yml`. The manifest names the package, its entry
program, the preludes that run before it, and the packages that it depends on.

Names are compared in their standard spelling (`standardName`): without blanks around them, and with
underscores for hyphens. Two dependencies whose names differ only in that respect are one. Which of
the two counts is drawn anew each time that the manifest is loaded (`Drawing`).
-/

namespace Smpl.Package

/-- The name of manifest files. -/
def manifestName : String := "package.yml"

/-- A name in its standard spelling. -/
def standardName (name : String) : String :=
  String.ofList ((Text.trimChars name.toList).map fun c => if c = '-' then '_' else c)

/-- Where the sources of a dependency come from: a local path, or a repository at a revision, tag or
branch. An empty text stands for what is not given. -/
structure Source where
  git : String := ""
  rev : String := ""
  tag : String := ""
  branch : String := ""
  path : String := ""
  deriving DecidableEq, Repr, Inhabited

/-- A manifest; an empty text stands for what is not given. -/
structure Manifest where
  /-- The absolute path of its file. -/
  path : String
  name : String
  version : String
  entry : String
  preludes : List String
  dependencies : Table Source
  deriving DecidableEq, Repr, Inhabited

/-! ## Faults -/

/-- What is wrong with the source of a dependency. -/
inductive SourceIssue where
  | pathAndGit
  | neither
  | pinWithoutGit
  | severalPins
  deriving DecidableEq, Repr

/-- The words for such an issue. -/
def SourceIssue.text : SourceIssue → String
  | .pathAndGit => "path dependencies cannot also specify git"
  | .neither => "must specify git or path"
  | .pinWithoutGit => "rev, tag and branch apply only to git dependencies"
  | .severalPins => "specify at most one of rev, tag or branch"

/-- What is wrong with a manifest. -/
inductive Issue where
  | noName
  | entryExtension (entry : String)
  | preludeExtension (position : Nat) (program : String)
  | dependency (name : String) (issue : SourceIssue)
  deriving DecidableEq, Repr

/-- The words for an issue. -/
def Issue.text : Issue → String
  | .noName => "name must be provided"
  | .entryExtension entry => "entry " ++ Text.quote entry ++ " must be a .json program"
  | .preludeExtension position program =>
    "preludes[" ++ toString position ++ "] " ++ Text.quote program ++ " must be a .json program"
  | .dependency name issue => "dependencies." ++ name ++ ": " ++ issue.text

/-- Why the source of a dependency is refused: it is neither a string nor a mapping. -/
inductive SourceRefusal where
  | shape (tag : String)

/-- The words for such a refusal. -/
def SourceRefusal.message : SourceRefusal → String
  | .shape tag => "expected string or mapping, found " ++ tag

/-- Why a part of a manifest is refused. -/
inductive Refusal where
  /-- The preludes are a mapping. -/
  | listShape (tag : String)
  /-- The dependencies are no mapping. -/
  | dependenciesShape
  /-- A dependency has an empty name. -/
  | dependencyName
  /-- The source of a dependency cannot be read. -/
  | dependency (name : String) (cause : Yaml.ReadError SourceRefusal)

/-- The words for a refusal. -/
def Refusal.message : Refusal → String
  | .listShape tag => "manifest: expected string or sequence for list but found " ++ tag
  | .dependenciesShape => "manifest: dependencies must be a mapping"
  | .dependencyName => "manifest: dependency names must be non-empty"
  | .dependency name cause =>
    "manifest: dependency " ++ Text.quote name ++ ": " ++ cause.message SourceRefusal.message

/-- Why a manifest cannot be loaded. -/
inductive ManifestError where
  | emptyPath
  | unreadable (path : String) (cause : FileError)
  | empty (path : String)
  | unparsable (path : String) (cause : Yaml.ReadError Refusal)
  | invalid (issues : List Issue)

namespace ManifestError

/-- The message of an error. -/
def message : ManifestError → String
  | .emptyPath => "manifest: empty path"
  | .unreadable path cause => "manifest: open " ++ path ++ ": " ++ cause.message
  | .empty path => "manifest: " ++ path ++ " is empty"
  | .unparsable path cause => "manifest: parse " ++ path ++ ": " ++ cause.message Refusal.message
  | .invalid issues =>
    "manifest validation failed:" ++ String.join (issues.map fun i => "\n- " ++ i.text)

/-- Whether the manifest does not exist. -/
def isMissing : ManifestError → Bool
  | .unreadable _ cause => cause.fault = .missing
  | _ => false

end ManifestError

/-! ## Reading -/

/-- The contents of a manifest file as they are written. -/
structure ManifestFile where
  name : String := ""
  version : String := ""
  entry : String := ""
  preludes : List String := []
  /-- The sources under the names as written, without blanks around them. -/
  dependencies : List (String × Source) := []
  deriving DecidableEq, Repr, Inhabited

/-- Reads the items of a list of preludes, up to the first one that is no string. Null stands for an
empty string. -/
def readPreludeItems (d : Yaml.Document) : List Yaml.Node → Yaml.Reading Refusal (List String)
  | [] => pure []
  | n :: rest => do
    match ← (Yaml.Reading.string d n).apart with
    | some s => pure (s.getD "" :: (← readPreludeItems d rest))
    | none => pure []

/-- Reads preludes: one string, or a list of strings. -/
def readPreludes (d : Yaml.Document) (n : Yaml.Node) : Yaml.Reading Refusal (List String) :=
  match d.follow n with
  | .scalar _ tag text => do
    if tag = Yaml.nullTag then
      let _ ← Yaml.Reading.scalarText tag text
      pure []
    else pure (if Text.trim text = "" then [] else [Text.trim text])
  | .sequence _ _ nodes => readPreludeItems d nodes
  | .mapping _ tag _ => throw (.refused (.listShape tag))
  | .alias _ _ _ => pure []

/-- The fields of a source that is written as a mapping. -/
def sourceType (d : Yaml.Document) : Yaml.RecordType SourceRefusal Source where
  name := "source"
  strict := false
  fields := [
    ("git", Yaml.Reading.stringField d fun s a => { a with git := s }),
    ("rev", Yaml.Reading.stringField d fun s a => { a with rev := s }),
    ("tag", Yaml.Reading.stringField d fun s a => { a with tag := s }),
    ("branch", Yaml.Reading.stringField d fun s a => { a with branch := s }),
    ("path", Yaml.Reading.stringField d fun s a => { a with path := s })]

/-- A source without blanks around its parts. -/
def Source.trim (s : Source) : Source where
  git := Text.trim s.git
  rev := Text.trim s.rev
  tag := Text.trim s.tag
  branch := Text.trim s.branch
  path := Text.trim s.path

/-- Reads a source: a string is a local path, whatever its type. -/
def readSource (d : Yaml.Document) (n : Yaml.Node) : Except (Yaml.ReadError SourceRefusal) Source :=
  match d.follow n with
  | .scalar _ _ text => .ok { path := Text.trim text }
  | .sequence _ tag _ => .error (.refused (.shape tag))
  | n => do pure ((← ((sourceType d).read d n {}).finish).getD {}).trim

/-- Sets the source of a name in a list, in place of an earlier one. -/
def putSource (name : String) (source : Source) : List (String × Source) → List (String × Source)
  | [] => [(name, source)]
  | (key, old) :: rest =>
    if key = name then (name, source) :: rest else (key, old) :: putSource name source rest

/-- Reads the entries of the dependencies, up to the first name that is no string. -/
def readDependencyEntries (d : Yaml.Document) :
    List (String × Source) → List (Yaml.Node × Yaml.Node) →
      Yaml.Reading Refusal (List (String × Source))
  | sources, [] => pure sources
  | sources, (key, value) :: rest => do
    match ← (Yaml.Reading.string d key).apart with
    | none => pure []
    | some name =>
      let name := Text.trim (name.getD "")
      if name = "" then throw (.refused .dependencyName)
      else
        match readSource d value with
        | .error cause => throw (.refused (.dependency name cause))
        | .ok source => readDependencyEntries d (putSource name source sources) rest

/-- Reads dependencies. -/
def readDependencies (d : Yaml.Document) (n : Yaml.Node) :
    Yaml.Reading Refusal (List (String × Source)) :=
  match d.follow n with
  | .mapping _ _ entries => readDependencyEntries d [] entries
  | n => do
    match n with
    | .scalar _ tag text =>
      if tag = Yaml.nullTag then
        let _ ← Yaml.Reading.scalarText tag text
        pure []
      else throw (.refused .dependenciesShape)
    | _ => throw (.refused .dependenciesShape)

/-- The fields of a manifest file. -/
def manifestType (d : Yaml.Document) : Yaml.RecordType Refusal ManifestFile where
  name := "driver.manifestFile"
  strict := true
  fields := [
    ("name", Yaml.Reading.stringField d fun s a => { a with name := s }),
    ("version", Yaml.Reading.stringField d fun s a => { a with version := s }),
    ("entry", Yaml.Reading.stringField d fun s a => { a with entry := s }),
    ("preludes", fun n a => do pure { a with preludes := ← readPreludes d n }),
    ("dependencies", fun n a => do pure { a with dependencies := ← readDependencies d n })]

/-- An order in which the dependencies of a manifest file are gone through. There is no order that they
always have. -/
structure Drawing where
  order : List (String × Source) → List (String × Source)
  perm : ∀ sources, (order sources).Perm sources

/-- The order in which they are written. -/
def Drawing.asWritten : Drawing := ⟨id, fun _ => .refl _⟩

/-- The contents of a manifest file with the dependencies in the order of a drawing. -/
def ManifestFile.drawn (f : ManifestFile) (draw : Drawing) : ManifestFile :=
  { f with dependencies := draw.order f.dependencies }

/-- The dependencies of a manifest file under the standard spelling of their names. They are gone
through in order, and of several with one spelling the last one counts. -/
def dependencyTable (sources : List (String × Source)) : Table Source :=
  Table.ofEntries (sources.map fun (name, source) => (standardName name, source))

/-- The manifest of a file with such contents. -/
def ManifestFile.toManifest (f : ManifestFile) (path : String) : Manifest where
  path := path
  name := standardName f.name
  version := Text.trim f.version
  entry := Text.trim f.entry
  preludes := (f.preludes.map Text.trim).filter (· ≠ "")
  dependencies := dependencyTable f.dependencies

/-! ## Validation -/

/-- What is wrong with a source. -/
def Source.issues (s : Source) : List SourceIssue :=
  let pins := ([s.rev, s.tag, s.branch].filter (· ≠ "")).length
  (if s.path ≠ "" ∧ s.git ≠ "" then [.pathAndGit] else []) ++
    (if s.path = "" ∧ s.git = "" then [.neither] else []) ++
    (if 0 < pins ∧ s.git = "" then [.pinWithoutGit] else []) ++
    (if 1 < pins then [.severalPins] else [])

/-- The extension of programs. -/
def programExtension : String := ".json"

/-- The preludes that are no programs, from a position on. -/
def preludeIssues : Nat → List String → List Issue
  | _, [] => []
  | position, program :: rest =>
    (if Path.ext program ≠ programExtension then [.preludeExtension position program] else []) ++
      preludeIssues (position + 1) rest

/-- What is wrong with the dependencies. That has no order of its own; the order of the words is a
choice. -/
def dependencyIssues (dependencies : Table Source) : List Issue :=
  (dependencies.flatMap fun (name, source) => source.issues.map (Issue.dependency name)).mergeSort
    fun a b => a.text ≤ b.text

namespace Manifest

/-- What is wrong with a manifest. -/
def issues (m : Manifest) : List Issue :=
  (if m.name = "" then [.noName] else []) ++
    (if m.entry ≠ "" ∧ Path.ext m.entry ≠ programExtension then [.entryExtension m.entry]
      else []) ++
    preludeIssues 0 m.preludes ++ dependencyIssues m.dependencies

/-- The manifest that a text describes, with a drawing of its dependencies. -/
def ofText (draw : Drawing) (path text : String) : Except ManifestError Manifest :=
  match Yaml.RecordType.readText manifestType text {} with
  | .error .noDocument => .error (.empty path)
  | .error cause => .error (.unparsable path cause)
  | .ok file =>
    let m := (file.drawn draw).toManifest path
    match m.issues with
    | [] => .ok m
    | issues => .error (.invalid issues)

/-- Loads the manifest of an absolute path. -/
def load (draw : Drawing) (files : FileTree) (path : String) : Except ManifestError Manifest :=
  match files.openAt path with
  | .error cause => .error (.unreadable path cause)
  | .ok (.directory _) => .error (.unparsable path .malformed)
  | .ok (.file contents) =>
    match String.fromUTF8? contents with
    | none => .error (.unparsable path .malformed)
    | some text => ofText draw path text

/-- Loads the manifest of a path from a working directory on. -/
def loadFrom (draw : Drawing) (files : FileTree) (cwd path : String) : Except ManifestError Manifest :=
  if path = "" then .error .emptyPath else load draw files (Path.absolute cwd path)

/-- The directory of the package. -/
def dir (m : Manifest) : String := Path.dir m.path

/-- A path from the directory of the package on, made absolute. -/
def resolve (m : Manifest) (path : String) : String :=
  if Path.isAbsolute path then path else Path.join [m.dir, path]

/-- The path of the entry program; empty without one. -/
def entryPath (m : Manifest) : String := if m.entry = "" then "" else m.resolve m.entry

/-- The paths of the preludes in order. -/
def preludePaths (m : Manifest) : List String := m.preludes.map m.resolve

end Manifest

/-! ## Occasions -/

/-- What a manifest is loaded for. No command loads one twice for the same. -/
inductive Occasion where
  /-- For the package that the command is about. -/
  | start
  /-- For the version of a dependency. -/
  | version (name : String)
  /-- For the dependencies of a dependency. -/
  | dependencies (name : String)
  deriving DecidableEq, Repr

/-- The drawings of a command. Each occasion has its own, because every load draws anew. -/
abbrev Draws := Occasion → Drawing

/-- Everything in the order in which it is written. -/
def Draws.asWritten : Draws := fun _ => .asWritten

end Smpl.Package
