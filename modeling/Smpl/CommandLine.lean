import Smpl.Package.Install

/-!
# The command line

`run` says what a call of the command does: what it prints, what it logs, which files it leaves, and
the code it ends with. It sees the world only through its arguments (`Environment`).

* `smpl run FILE`, or `smpl FILE`, runs a program with the preludes of the package around it;
  without a file it runs the entry of the package.
* `smpl deps install` resolves the dependencies of the package and brings its lockfile up to date.

The package is that of the nearest manifest, in the directory of the file or above it.
-/

namespace Smpl.CommandLine

open Package

/-- The name and version of the tool. -/
def toolVersion : String := "smpl 0.1.0-dev"

/-- What a call of the command sees. -/
structure Environment where
  files : FileTree
  cwd : String
  /-- The directory for installed packages, if one is set. -/
  smplHome : String := ""
  /-- The home directory of the user. -/
  userHome : String := ""
  stdin : String := ""
  /-- The time stamp of the call. -/
  now : String := ""
  /-- What the call draws where it loads manifests. -/
  draws : Draws := .asWritten

/-- What a call of the command does. -/
structure Outcome where
  code : Nat
  stdout : String := ""
  stderr : String := ""
  log : List LogLine := []
  files : FileTree

/-- The workspace of a call. -/
def Environment.workspace (env : Environment) : Workspace := ⟨env.files, env.cwd, env.draws⟩

/-- Ends with a complaint. -/
def fail (env : Environment) (complaint : String) : Outcome :=
  { code := 1, stderr := complaint ++ "\n", files := env.files }

/-- How to use the command. -/
def usage : String :=
  "Usage:\n" ++
  "  smpl [-v|-debug] run [file.json]\n" ++
  "  smpl [-v|-debug] <file.json>\n" ++
  "  smpl deps install\n" ++
  "  smpl --version\n"

/-! ## The nearest manifest -/

/-- Why there is no manifest around a directory. -/
inductive NearestError where
  /-- Neither the directory nor one above it has a manifest. -/
  | notFound (origin : String)
  | file (cause : FileError)
  | manifest (cause : ManifestError)

/-- The message of an error. -/
def NearestError.message : NearestError → String
  | .notFound origin =>
    "no " ++ manifestName ++ " found from " ++ origin ++ " upwards: " ++ manifestName ++
      " not found"
  | .file cause => cause.message
  | .manifest cause => cause.message

/-- The path of the first manifest in some directories. A directory of that name is none. -/
def firstManifest (files : FileTree) : List String → Except FileError (Option String)
  | [] => .ok none
  | dir :: rest =>
    let candidate := Path.join [dir, manifestName]
    match files.stat candidate with
    | .ok tree => if tree.isDirectory then firstManifest files rest else .ok (some candidate)
    | .error e => if e.fault = .missing then firstManifest files rest else .error e

/-- The directory to look from: that of a file, or the path itself. -/
def originOf (files : FileTree) (path : String) : String :=
  match files.get path with
  | .ok tree => if tree.isDirectory then path else Path.dir path
  | .error _ => path

/-- The path of the nearest manifest from a place on. -/
def findManifest (files : FileTree) (cwd start : String) : Except NearestError String :=
  let origin := originOf files (Path.absolute cwd start)
  match firstManifest files (Path.upward origin) with
  | .ok (some path) => .ok path
  | .ok none => .error (.notFound origin)
  | .error cause => .error (.file cause)

/-- The nearest manifest from a place on. -/
def nearestManifest (draw : Drawing) (files : FileTree) (cwd start : String) :
    Except NearestError Manifest := do
  let path ← findManifest files cwd start
  (Manifest.load draw files path).mapError .manifest

/-- The path of the lockfile beside a manifest. -/
def lockfilePath (m : Manifest) : String := Path.join [m.dir, lockfileName]

/-! ## Home -/

/-- The directory for installed packages: the one that is set, or one in the home of the user. -/
def resolveHome (env : Environment) : Except String String :=
  let home := Text.trim env.smplHome
  if home ≠ "" then .ok (Path.absolute env.cwd home)
  else if env.userHome = "" then .error "resolve user home: $HOME is not defined"
  else .ok (Path.join [env.userHome, ".smpl"])

/-! ## Running programs -/

/-- The complaint about a lockfile of another package. -/
def rootMismatch (l : Lockfile) (m : Manifest) : String :=
  "lockfile root " ++ Text.quote l.root ++ " does not match manifest name " ++ Text.quote m.name

/-- Whether a dependency comes from a repository. -/
def hasRepositories (m : Manifest) : Bool := m.dependencies.any fun e => e.2.git ≠ ""

/-- The lockfile beside a manifest. It may be missing if no dependency comes from a repository. -/
def lockfileFor (files : FileTree) (m : Manifest) : Except String (Option Lockfile) :=
  let path := lockfilePath m
  match Lockfile.load files path with
  | .ok l => if l.root = m.name then .ok (some l) else .error (rootMismatch l m)
  | .error e =>
    if !e.isMissing then .error ("failed to read lockfile " ++ path ++ ": " ++ e.message)
    else if hasRepositories m then
      .error (lockfileName ++ " missing for " ++ Text.quote m.name ++ "; run `smpl deps install`")
    else .ok none

/-- The report of a failed run, and what is logged about it. -/
def runtimeReport (e : BundleFailure) : String × List LogLine :=
  match e.cause? with
  | some cause =>
    match cause.kind? with
    | some kind =>
      ("runtime error (" ++ kind.text ++ "): " ++ cause.message ++ "\n",
        [⟨.verbose, "full error: " ++ e.message⟩])
    | none => ("runtime error: " ++ e.message ++ "\n", [])
  | none => ("runtime error: " ++ e.message ++ "\n", [])

/-- Loads and runs an entry program. A crash ends the call with a code of its own and without a
report. -/
def execute (env : Environment) (entry : String) (m : Option Manifest) (l : Option Lockfile) :
    Outcome :=
  match resolveHome env with
  | .error e => fail env ("failed to resolve SMPL_HOME: " ++ e)
  | .ok home =>
    match loadPackage env.workspace ⟨home, l⟩ m entry {} with
    | .error e s =>
      { fail env ("failed to load program: " ++ e.message) with log := s.log.toList }
    | .ok bundle loaded =>
      match bundle.evaluate (State.initial (some (Console.ofText env.stdin))) with
      | .ok _ s =>
        { code := 0, stdout := s.output, log := loaded.log.toList ++ s.log.toList,
          files := env.files }
      | .error e s =>
        if e.isCrash then
          { code := 2, stdout := s.output, log := loaded.log.toList ++ s.log.toList,
            files := env.files }
        else
          let (report, more) := runtimeReport e
          { code := 1, stdout := s.output, stderr := report,
            log := loaded.log.toList ++ s.log.toList ++ more, files := env.files }

/-- Runs an entry program of a package, or alone. An empty path means the entry of the package. -/
def runWith (env : Environment) (entry : String) (m : Option Manifest) : Outcome :=
  match m with
  | none =>
    if entry = "" then
      fail env ("smpl run requires a program file (" ++ manifestName ++ " not found)")
    else execute env entry none none
  | some m =>
    if entry = "" ∧ m.entry = "" then
      fail env ("manifest " ++ m.path ++ " declares no entry program")
    else
      match lockfileFor env.files m with
      | .error complaint => fail env complaint
      | .ok l => execute env entry (some m) l

/-- Runs the program of a path in the package around it. A package that cannot be loaded is passed
over with a warning; without a path it is an error. -/
def runEntry (env : Environment) (entry start : String) : Outcome :=
  match nearestManifest (env.draws .start) env.files env.cwd start with
  | .ok m => runWith env entry (some m)
  | .error (.notFound _) => runWith env entry none
  | .error e =>
    if entry = "" then fail env ("failed to load manifest: " ++ e.message)
    else
      let warning := "unable to load manifest (" ++ e.message ++ "); running " ++ entry ++
        " without preludes"
      let outcome := runWith env entry none
      { outcome with log := ⟨.warning, warning⟩ :: outcome.log }

/-- Runs the program that the arguments name, at most one. -/
def runProgram (env : Environment) : List String → Outcome
  | [] => runEntry env "" "."
  | [path] =>
    let entry := Text.trim path
    runEntry env entry (Path.dir entry)
  | _ :: rest => fail env ("unexpected arguments: " ++ " ".intercalate rest)

/-! ## Installing dependencies -/

/-- The lockfile to bring up to date, and whether it is new. -/
def lockfileToUpdate (env : Environment) (m : Manifest) : Except String (Lockfile × Bool) :=
  match Lockfile.load env.files (lockfilePath m) with
  | .ok l => if l.root = m.name then .ok (l, false) else .error (rootMismatch l m)
  | .error e =>
    if e.isMissing then .ok (Lockfile.new m.name toolVersion env.now, true)
    else .error ("failed to read lockfile: " ++ e.message)

/-- Writes a lockfile that has changed. -/
def saveLockfile (env : Environment) (files : FileTree) (m : Manifest) (l : Lockfile)
    (created : Bool) : Except String (String × FileTree) :=
  match Lockfile.write files env.cwd env.now (lockfilePath m) (some l) with
  | .error e => .error ("failed to write lockfile: " ++ e.message)
  | .ok (l, files) =>
    .ok ((if created then "Created " else "Updated ") ++ lockfileName ++ ": " ++ l.path ++ "\n",
      files)

/-- Installs the dependencies of a package. -/
def installPackage (env : Environment) (home : String) (m : Manifest) : Outcome :=
  let head := "Manifest: " ++ m.path ++ "\n" ++
    "Dependencies: " ++ toString m.dependencies.length ++ "\n"
  match lockfileToUpdate env m with
  | .error complaint => { fail env complaint with stdout := head }
  | .ok (l, created) =>
    let start : InstallState := { files := env.files, lock := { l with tool := toolVersion } }
    match install env.draws env.cwd home m start with
    | .error e s =>
      { code := 1, stdout := head,
        stderr := "failed to resolve dependencies: " ++ e.message ++ "\n",
        log := s.log, files := s.files }
    | .ok changed s =>
      let report := head ++ String.join (s.report.map (· ++ "\n"))
      if changed || created then
        match saveLockfile env s.files m s.lock created with
        | .error complaint =>
          { code := 1, stdout := report, stderr := complaint ++ "\n", log := s.log,
            files := s.files }
        | .ok (line, files) =>
          { code := 0, stdout := report ++ line, log := s.log, files := files }
      else
        let line := lockfileName ++ " already up to date: " ++ lockfilePath m ++ "\n"
        { code := 0, stdout := report ++ line, log := s.log, files := s.files }

/-- Installs the dependencies of the package around the working directory. -/
def runInstall (env : Environment) : Outcome :=
  match nearestManifest (env.draws .start) env.files env.cwd "." with
  | .error e => fail env ("unable to locate " ++ manifestName ++ ": " ++ e.message)
  | .ok m =>
    match resolveHome env with
    | .error e => fail env ("failed to resolve SMPL_HOME: " ++ e)
    | .ok home => installPackage env home m

/-- The commands on dependencies. -/
def runDeps (env : Environment) : List String → Outcome
  | [] => fail env "smpl deps requires a subcommand (install)"
  | ["install"] => runInstall env
  | "install" :: rest =>
    fail env ("smpl deps install does not take arguments (received " ++ " ".intercalate rest ++ ")")
  | command :: _ => fail env ("unknown deps subcommand " ++ Text.quote command)

/-! ## All commands -/

/-- The level of the log that leading flags ask for, and the other arguments. The last flag
counts. -/
def verbosity : LogLevel → List String → LogLevel × List String
  | level, [] => (level, [])
  | level, flag :: rest =>
    if flag = "-v" ∨ flag = "--verbose" then verbosity .verbose rest
    else if flag = "-debug" ∨ flag = "--debug" then verbosity .debug rest
    else (level, flag :: rest)

/-- What a command does. -/
def dispatch (env : Environment) : List String → Outcome
  | [] => { code := 1, stderr := usage, files := env.files }
  | command :: rest =>
    if command ∈ ["--help", "-h", "help"] then { code := 0, stderr := usage, files := env.files }
    else if command ∈ ["--version", "-V", "version"] then
      { code := 0, stdout := toolVersion ++ "\n", files := env.files }
    else if command = "run" then runProgram env rest
    else if command = "deps" then runDeps env rest
    else runProgram env (command :: rest)

/-- What a call of the command does; its log holds what is to be shown. -/
def run (env : Environment) (arguments : List String) : Outcome :=
  let (level, rest) := verbosity .warning arguments
  let outcome := dispatch env rest
  { outcome with log := shownAt level outcome.log }

end Smpl.CommandLine
