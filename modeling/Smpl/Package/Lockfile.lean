import Smpl.Package.Manifest
import Smpl.Yaml.Printer

/-!
# Lockfiles

The lockfile of a package, `package.lock`, records which packages its dependencies were resolved to.
Packages are found by name. Every change ends in the normal form (`normalize`): names and
dependencies in their standard spelling, no blanks around the other fields, packages in the order
that their names had before that, and the dependencies of each package sorted.
-/

namespace Smpl.Package

/-- The name of lockfiles. -/
def lockfileName : String := "package.lock"

/-- A resolved dependency. -/
structure LockedPackage where
  name : String := ""
  version : String := ""
  source : String := ""
  checksum : String := ""
  dependencies : List String := []
  deriving DecidableEq, Repr, Inhabited

/-- A lockfile; `path` is where it was loaded from or written to. -/
structure Lockfile where
  path : String := ""
  root : String := ""
  generated : String := ""
  tool : String := ""
  packages : List LockedPackage := []
  deriving DecidableEq, Repr, Inhabited

/-- Sorts strings. -/
def sortStrings (strings : List String) : List String := strings.mergeSort fun a b => a ≤ b

namespace LockedPackage

/-- A package with its fields in normal form. -/
def normalize (p : LockedPackage) : LockedPackage where
  name := standardName p.name
  version := Text.trim p.version
  source := Text.trim p.source
  checksum := Text.trim p.checksum
  dependencies := sortStrings (p.dependencies.map standardName)

/-- Whether two packages agree, in whatever order their dependencies are. -/
def agrees (p q : LockedPackage) : Bool :=
  p.name = q.name && p.version = q.version && p.source = q.source && p.checksum = q.checksum &&
    sortStrings p.dependencies = sortStrings q.dependencies

end LockedPackage

namespace Lockfile

/-- The packages sorted by name; those of one name keep their order. -/
def sortPackages (packages : List LockedPackage) : List LockedPackage :=
  packages.mergeSort fun a b => a.name ≤ b.name

/-- A lockfile in normal form. -/
def normalize (l : Lockfile) : Lockfile :=
  { l with
    root := standardName l.root
    tool := Text.trim l.tool
    packages := (sortPackages l.packages).map LockedPackage.normalize }

/-- A new lockfile for the package of a name. -/
def new (root tool generated : String) : Lockfile where
  root := standardName root
  generated := generated
  tool := Text.trim tool

/-- The package of a name. -/
def find? (l : Lockfile) (name : String) : Option LockedPackage :=
  l.packages.find? fun p => p.name = standardName name

/-- Puts a package in place of the first one of a name. -/
def replaceFirst (name : String) (p : LockedPackage) : List LockedPackage → List LockedPackage
  | [] => []
  | q :: rest => if q.name = name then p :: rest else q :: replaceFirst name p rest

/-- Puts a package in place of the one of its name, or adds it. Tells whether that changes
anything. -/
def upsert (l : Lockfile) (p : LockedPackage) : Bool × Lockfile :=
  match l.find? p.name with
  | some old =>
    if old.agrees p then (false, l)
    else
      (true, { l with packages := replaceFirst (standardName p.name) p l.packages }.normalize)
  | none => (true, { l with packages := l.packages ++ [p] }.normalize)

/-- Keeps the packages of some names only. Tells whether others were there. -/
def retain (l : Lockfile) (names : List String) : Bool × Lockfile :=
  let kept := l.packages.filter fun p => (names.map standardName).contains p.name
  (kept.length ≠ l.packages.length, { l with packages := kept })

/-! ## Text -/

/-- The text of a package. -/
def packageText (p : LockedPackage) : String :=
  "  - name: " ++ Yaml.endLine 6 p.name ++ "    version: " ++ Yaml.endLine 6 p.version ++
    "    source: " ++ Yaml.endLine 6 p.source ++ "    checksum: " ++ Yaml.endLine 6 p.checksum ++
    (if p.dependencies.isEmpty then ""
      else "    dependencies:\n" ++
        String.join (p.dependencies.map fun d => "      - " ++ Yaml.endLine 8 d))

/-- The text of a lockfile. -/
def text (l : Lockfile) : String :=
  "root: " ++ Yaml.endLine 2 l.root ++ "generated: " ++ Yaml.endLine 2 l.generated ++
    "tool: " ++ Yaml.endLine 2 l.tool ++
    (if l.packages.isEmpty then "packages: []\n"
      else "packages:\n" ++ String.join (l.packages.map packageText))

/-! ## Loading and writing -/

/-- Why a lockfile cannot be loaded or written. -/
inductive Error where
  | emptyPath
  | unreadable (cause : FileError)
  | unparsable (path : String) (cause : Yaml.ReadError Empty)
  /-- There is no lockfile to write. -/
  | noLockfile
  /-- The lockfile to write has no path. -/
  | noPath
  | unwritable (path : String) (cause : FileError)

/-- The message of an error. -/
def Error.message : Error → String
  | .emptyPath => "lockfile: empty path"
  | .unreadable cause => cause.message
  | .unparsable path cause => "lockfile: parse " ++ path ++ ": " ++ cause.message Empty.elim
  | .noLockfile => "lockfile: nil lockfile"
  | .noPath => "lockfile: missing path"
  | .unwritable path cause => "lockfile: write " ++ path ++ ": " ++ cause.message

/-- Whether the lockfile does not exist. -/
def Error.isMissing : Error → Bool
  | .unreadable cause => cause.fault = .missing
  | .unwritable _ cause => cause.fault = .missing
  | _ => false

/-- The fields of a package in a lockfile. -/
def packageType (d : Yaml.Document) : Yaml.RecordType Empty LockedPackage where
  name := "driver.lockfilePackage"
  strict := true
  fields := [
    ("name", Yaml.Reading.stringField d fun s a => { a with name := s }),
    ("version", Yaml.Reading.stringField d fun s a => { a with version := s }),
    ("source", Yaml.Reading.stringField d fun s a => { a with source := s }),
    ("checksum", Yaml.Reading.stringField d fun s a => { a with checksum := s }),
    ("dependencies", fun n a => do pure { a with dependencies := ← Yaml.Reading.strings d n })]

/-- The fields of a lockfile. -/
def fileType (d : Yaml.Document) : Yaml.RecordType Empty Lockfile where
  name := "driver.lockfileDisk"
  strict := true
  fields := [
    ("root", Yaml.Reading.stringField d fun s a => { a with root := s }),
    ("generated", Yaml.Reading.stringField d fun s a => { a with generated := s }),
    ("tool", Yaml.Reading.stringField d fun s a => { a with tool := s }),
    ("packages", fun n a => do
      let read (n : Yaml.Node) := (packageType d).read d n {}
      pure { a with packages := ← Yaml.Reading.list d "[]driver.lockfilePackage" read n })]

/-- The lockfile with such fields: in normal form. -/
def ofFields (l : Lockfile) : Lockfile := { l with generated := Text.trim l.generated }.normalize

/-- The lockfile that a text describes. -/
def ofText (path text : String) : Except Error Lockfile :=
  match Yaml.RecordType.readText fileType text {} with
  | .error cause => .error (.unparsable path cause)
  | .ok l => .ok { l.ofFields with path := path }

/-- Loads the lockfile of an absolute path. -/
def load (files : FileTree) (path : String) : Except Error Lockfile :=
  match files.openAt path with
  | .error cause => .error (.unreadable cause)
  | .ok (.directory _) => .error (.unparsable path .malformed)
  | .ok (.file contents) =>
    match String.fromUTF8? contents with
    | none => .error (.unparsable path .malformed)
    | some text => ofText path text

/-- Loads the lockfile of a path from a working directory on. -/
def loadFrom (files : FileTree) (cwd path : String) : Except Error Lockfile :=
  if path = "" then .error .emptyPath else load files (Path.absolute cwd path)

/-- A lockfile as it is written to a path: in normal form, and with a time stamp. -/
def prepare (l : Lockfile) (now path : String) : Lockfile :=
  { l with generated := if l.generated = "" then now else l.generated, path := path }.normalize

/-- Writes a lockfile to a path, or to its own path if that is empty. -/
def write (files : FileTree) (cwd now path : String) (l : Option Lockfile) :
    Except Error (Lockfile × FileTree) :=
  match l with
  | none => .error .noLockfile
  | some l =>
    if path = "" ∧ l.path = "" then .error .noPath
    else
      let path := Path.absolute cwd (if path = "" then l.path else path)
      let l := l.prepare now path
      match files.write path l.text.toUTF8 with
      | .error cause => .error (.unwritable path cause)
      | .ok files => .ok (l, files)

end Lockfile

end Smpl.Package
