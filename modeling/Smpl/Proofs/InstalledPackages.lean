import Smpl.Proofs.DependencyNames
import Smpl.Proofs.LoadOrder

/-!
# Loading what is installed

Installing and loading find their dependencies in different ways: the one by what is in the files and
the cache, the other by the lockfile that the first has left. After an installation both find the same
(`Installed.placement`): the directory of a local path does not depend on the lockfile, and the
directory in the cache is that of the version that the lockfile holds. So the walk of the installation
is the walk of loading, and all that can fail is a program file.

That is so if loading reads the manifests of the packages as installing did. It does if keys of one
spelling have one source there (`sameRead_of_alike`). If they have not, loading may draw another source
than installing did, and miss the package (`forked_not_loaded`).
-/

namespace Smpl.Package

variable {draws draws' : Draws} {cwd home : String} {m : Manifest} {l : Lockfile} {files : FileTree}
  {changed : Bool} {s : InstallState} {visits : List (Visit Fetched)}

/-- What was installed is found in the place where it was found then. -/
theorem Installed.placement (installed : Installed draws cwd home m s visits) {parent n : Manifest}
    {name : String} {source : Source} {f : Fetched} (visited : ⟨name, f, n⟩ ∈ visits)
    (lasting : Lasting draws cwd home s.files parent name source f n)
    (same : SameRead draws draws' s.files cwd f.dir (.dependencies name)) :
    Placement ⟨s.files, cwd, draws'⟩ ⟨home, some s.lock⟩ parent name source f.dir n := by
  have located := lasting s.files (.refl _)
  have found := found_of_locate located
  constructor
  · rw [Store.dirOf]
    rcases found.placed with ⟨given, dir⟩ | ⟨missing, there, version, dir⟩
    · rw [if_pos given, dir]
    · have held := installed.holds ⟨name, f, n⟩ visited
      dsimp only at held
      rw [if_neg (not_not.mpr missing), dir]
      simp only [Option.bind_some, held, LockedPackage.normalize_version, found.trimVersion,
        if_neg version, if_neg there]
  · exact loadDependency_eq_ok.mpr (Eq.trans same (loadFrom_of_locate located))

/-- The finished dependency that loading makes of a resolved one. -/
def Visit.loading (v : Visit Fetched) : Visit String := ⟨v.name, v.found.dir, v.manifest⟩

theorem Installed.loadingWalk (installed : Installed draws cwd home m s visits)
    (same : ∀ f ∈ s.settled, SameRead draws draws' s.files cwd f.dir (.dependencies f.package.name)) :
    Walk (Placement ⟨s.files, cwd, draws'⟩ ⟨home, some s.lock⟩) [] [] m m.dependencies
      (visits.map Visit.loading) := by
  refine installed.walk.map Fetched.dir fun parent name source f n visited lasting => ?_
  have settled : f ∈ s.settled := installed.settles.found ▸ List.mem_map_of_mem visited
  have named : f.package.name = name := installed.settles.named _ visited
  exact installed.placement visited lasting (named ▸ same f settled)

theorem Installed.placed_loading (installed : Installed draws cwd home m s visits) :
    (visits.map Visit.loading).map Visit.placed = s.settled.map Fetched.placed := by
  rw [← installed.settles.found, List.map_map, List.map_map]
  refine List.map_congr_left fun v member => ?_
  simp only [Function.comp_apply, Visit.loading, Visit.placed, Fetched.placed,
    installed.settles.named v member]

/-- The program files of a package: the preludes of its dependencies, its own, and the entry. -/
inductive ProgramFile (cwd : String) (m : Manifest) (entry : String) (s : InstallState) : String → Prop
  | dependency {f : Fetched} {draw : Drawing} {n : Manifest} {path : String} : f ∈ s.settled →
      Manifest.loadFrom draw s.files cwd (Path.join [f.dir, manifestName]) = .ok n →
      path ∈ n.preludePaths → ProgramFile cwd m entry s path
  | own {path : String} : path ∈ m.preludePaths → ProgramFile cwd m entry s path
  | entry : entryOf m entry ≠ "" → ProgramFile cwd m entry s (entryOf m entry)

/-- The walk of loading finishes what was resolved, unless a prelude cannot be loaded. -/
theorem Installed.visitDependencies (installed : Installed draws cwd home m s visits)
    (same : ∀ f ∈ s.settled, SameRead draws draws' s.files cwd f.dir (.dependencies f.package.name))
    (entry : String) :
    match Package.visitDependencies ⟨s.files, cwd, draws'⟩ ⟨home, some s.lock⟩ m {} with
    | .ok _ t => t.done = s.settled.map Fetched.placed
    | .error e _ =>
      ∃ path, ProgramFile cwd m entry s path ∧ Unloadable ⟨s.files, cwd, draws'⟩ path e := by
  have walk := installed.loadingWalk same
  have outcome := visitAll_of_walk walk (nameBound s.files m) {} rfl
  cases run : Package.visitDependencies ⟨s.files, cwd, draws'⟩ ⟨home, some s.lock⟩ m {} with
  | ok _ t =>
    rw [Package.visitDependencies] at run
    rw [run] at outcome
    exact outcome.trans installed.placed_loading
  | error e t =>
    have explained := visitDependencies_explained run
    rw [Package.visitDependencies] at run
    rw [run] at outcome
    rcases outcome with rfl | ⟨v, member, path, among, unloadable⟩
    · exact explained.elim
    · obtain ⟨parent, source, _, placement⟩ := walk.declared v member
      obtain ⟨u, visited, rfl⟩ := List.mem_map.mp member
      have read := loadDependency_ok placement.2
      have settled : u.found ∈ s.settled := installed.settles.found ▸ List.mem_map_of_mem visited
      exact ⟨path, .dependency settled read among, unloadable⟩

/-- After an installation that read the manifests as loading does, the package loads from what is
there, unless a program file cannot be loaded or there is no entry at all. The dependencies are
finished in the order in which they were resolved, each in the directory where it was found. -/
theorem installed_package_loads (loaded : m.Loaded) (lock : l.Loaded)
    (run : install draws cwd home m { files := files, lock := l } = .ok changed s)
    (same : ∀ f ∈ s.settled, SameRead draws draws' s.files cwd f.dir (.dependencies f.package.name))
    (entry : String) :
    match loadPackage ⟨s.files, cwd, draws'⟩ ⟨home, some s.lock⟩ (some m) entry {} with
    | .ok _ t => t.done = s.settled.map Fetched.placed
    | .error e _ =>
      (∃ path, ProgramFile cwd m entry s path ∧ Unloadable ⟨s.files, cwd, draws'⟩ path e) ∨
      (entry = "" ∧ m.entryPath = "" ∧ e = .noEntry) := by
  obtain ⟨visits, installed⟩ := installed_of_install loaded.tidy lock.normal run
  have walked := installed.visitDependencies same entry
  rw [loadPackage_run]
  by_cases missing : entryOf m entry = ""
  · rw [if_pos missing]
    rw [entryOf] at missing
    split at missing
    · next empty => exact .inr ⟨empty, missing, rfl⟩
    · next given => exact absurd missing given
  · rw [if_neg missing]
    cases visited : Package.visitDependencies ⟨s.files, cwd, draws'⟩ ⟨home, some s.lock⟩ m {} with
    | error e t =>
      rw [visited] at walked
      exact .inl walked
    | ok _ t₁ =>
      rw [visited] at walked
      have preludes := loadPreludes_outcome ⟨s.files, cwd, draws'⟩ m m.preludePaths t₁
      dsimp only
      cases appended : loadPreludes ⟨s.files, cwd, draws'⟩ m m.preludePaths t₁ with
      | error e t =>
        rw [appended] at preludes
        obtain ⟨path, among, unloadable⟩ := preludes
        exact .inl ⟨path, .own among, unloadable⟩
      | ok _ t₂ =>
        rw [appended] at preludes
        have finished := loadMember_outcome ⟨s.files, cwd, draws'⟩ m (entryOf m entry) t₂
        dsimp only
        cases ended : loadMember ⟨s.files, cwd, draws'⟩ m (entryOf m entry) t₂ with
        | error e t =>
          rw [ended] at finished
          exact .inl ⟨_, .entry missing, finished⟩
        | ok last t₃ =>
          rw [ended] at finished
          exact (finished.2.2.trans preludes.1).trans walked

/-- The package `app` depends on `a`, which is in a directory beside it, and both depend on `g`, which
is in the cache. -/
def mixed : FileTree := .directory [
  ("a", packageDirectory "name: a\ndependencies:\n  g:\n    git: g\n    rev: v1\n"),
  ("app", .directory [("main.json", .file "[]".toUTF8), (manifestName, .file
    "name: app\ndependencies:\n  a: ../a\n  g:\n    git: g\n    rev: v1\n".toUTF8)]),
  ("pkg", .directory [("src", .directory [("g", .directory [("v1", packageDirectory "name: g\n")])])])]

/-- The manifest of `app`. -/
def mixedApp : Manifest where
  path := "/app/package.yml"
  name := "app"
  version := ""
  entry := ""
  preludes := []
  dependencies := [("a", { path := "../a" }), ("g", { git := "g", rev := "v1" })]

/-- The order opposite to the one in which the dependencies are written. -/
def Drawing.reversed : Drawing := ⟨List.reverse, List.reverse_perm⟩

/-- Everything in the opposite order. -/
def Draws.reversed : Draws := fun _ => .reversed

/-- No two keys have one spelling, so another order of the keys makes no difference. -/
theorem mixedApp_loads : ∃ changed s,
    install .asWritten "/" "/" mixedApp { files := mixed, lock := .new "app" "" "" } =
      .ok changed s ∧
    match loadPackage ⟨s.files, "/", .reversed⟩ ⟨"/", some s.lock⟩ (some mixedApp)
      "app/main.json" {} with
    | .ok _ t => t.done = [⟨"g", "/pkg/src/g/v1"⟩, ⟨"a", "/a"⟩]
    | .error e _ =>
      (∃ path, ProgramFile "/" mixedApp "app/main.json" s path ∧
        Unloadable ⟨s.files, "/", .reversed⟩ path e) ∨
      ("app/main.json" = "" ∧ mixedApp.entryPath = "" ∧ e = .noEntry) := by
  have loaded : Manifest.load .asWritten mixed "/app/package.yml" = .ok mixedApp :=
    eq_ok_of_toOption (by decide +kernel)
  obtain ⟨changed, s, run, placed⟩ : ∃ changed s,
      install .asWritten "/" "/" mixedApp { files := mixed, lock := .new "app" "" "" } =
        .ok changed s ∧
      s.settled.map Fetched.placed = [⟨"g", "/pkg/src/g/v1"⟩, ⟨"a", "/a"⟩] :=
    install_of_placed (List.cons_ne_nil _ _) (by decide +kernel)
  have reads : ∀ p ∈ ([⟨"g", "/pkg/src/g/v1"⟩, ⟨"a", "/a"⟩] : List Placed), ∃ m,
      Manifest.loadFrom .asWritten mixed "/" (Path.join [p.dir, manifestName]) = .ok m ∧
      Manifest.loadFrom .reversed mixed "/" (Path.join [p.dir, manifestName]) = .ok m := by
    refine List.forall_mem_cons.mpr ⟨?_, List.forall_mem_singleton.mpr ?_⟩
    · exact ⟨⟨"/pkg/src/g/v1/package.yml", "g", "", "", [], []⟩,
        eq_ok_of_toOption (by decide +kernel), eq_ok_of_toOption (by decide +kernel)⟩
    · exact ⟨⟨"/a/package.yml", "a", "", "", [], [("g", { git := "g", rev := "v1" })]⟩,
        eq_ok_of_toOption (by decide +kernel), eq_ok_of_toOption (by decide +kernel)⟩
  have same : ∀ f ∈ s.settled,
      SameRead .asWritten .reversed s.files "/" f.dir (.dependencies f.package.name) := by
    intro f member
    obtain ⟨m, first, second⟩ := reads f.placed (placed ▸ List.mem_map_of_mem member)
    exact SameRead.mono (Eq.trans second first.symm) (grown_of_install run) first
  have loads := installed_package_loads ⟨_, _, _, loaded⟩ (.inr ⟨"app", "", "", rfl⟩) run same
    "app/main.json"
  rw [placed] at loads
  exact ⟨changed, s, run, loads⟩

/-! ## Two sources of one spelling -/

/-- The package `app` depends on `d`, and `d` on two packages whose names have one spelling. The one is
in the directory `x`, and the directory of the other has no manifest. -/
def forked : FileTree := .directory [
  ("app", .directory [("main.json", .file "[]".toUTF8), (manifestName, .file
    "name: app\ndependencies:\n  d: ../d\n".toUTF8)]),
  ("d", packageDirectory "name: d\ndependencies:\n  a-b: ../x\n  a_b: ../y\n"),
  ("x", packageDirectory "name: x\n"),
  ("y", .directory [])]

/-- The manifest of `app`. -/
def forkedApp : Manifest where
  path := "/app/package.yml"
  name := "app"
  version := ""
  entry := ""
  preludes := []
  dependencies := [("d", { path := "../d" })]

/-- Installing draws the package in `x`, and loading the one that has no manifest. -/
theorem forked_not_loaded :
    Manifest.load .asWritten forked "/app/package.yml" = .ok forkedApp ∧
    ∃ changed s,
      install .reversed "/" "" forkedApp { files := forked, lock := .new "app" "" "" } =
        .ok changed s ∧
      s.settled.map Fetched.placed = [⟨"a_b", "/x"⟩, ⟨"d", "/d"⟩] ∧
      ∃ t, loadPackage ⟨s.files, "/", .asWritten⟩ ⟨"", some s.lock⟩ (some forkedApp)
        "/app/main.json" {} = .error (.noManifest "a_b" "/y") t := by
  have computed : (match install .reversed "/" "" forkedApp
      { files := forked, lock := .new "app" "" "" } with
    | .ok _ s =>
      match loadPackage ⟨s.files, "/", .asWritten⟩ ⟨"", some s.lock⟩ (some forkedApp)
        "/app/main.json" {} with
      | .error (.noManifest name dir) _ => some (s.settled.map Fetched.placed, name, dir)
      | _ => none
    | .error _ _ => none) = some ([⟨"a_b", "/x"⟩, ⟨"d", "/d"⟩], "a_b", "/y") := by
    decide +kernel
  refine ⟨eq_ok_of_toOption (by decide +kernel), ?_⟩
  split at computed
  · next changed s run =>
    split at computed
    · next name dir t failed =>
      obtain ⟨placed, rfl, rfl⟩ : _ ∧ name = "a_b" ∧ dir = "/y" := by simpa using computed
      exact ⟨changed, s, run, placed, t, failed⟩
    · cases computed
  · cases computed

end Smpl.Package
