import Smpl.Proofs.CleanPaths
import Smpl.Proofs.Locating

/-!
# Where cached sources lie

The sources of a repository dependency are looked for, and loaded from, a directory of the cache that
is named for the dependency and its revision. It is meant to lie two names below the cache: one for the
dependency, and there one for the version.

* Whatever is there is taken for the sources of the revision (`fetch_reused`).
* The directory lies two names below the cache if and only if the name and the version are single names
  of a path (`cacheDir_twoBelow_iff`).
* The version made of a revision holds no slash and is not empty, but the revisions `.` and `..` are
  versions themselves (`isSegment_pathSegment_iff`). The name of a dependency is not empty, and that is
  all that is known of it.

So there are manifests whose dependencies are loaded from elsewhere.
-/

namespace Smpl

/-! ## The cache -/

namespace Package

/-- The directory of all cached sources. -/
def cacheRoot (home : String) : String := Path.join [home, "pkg", "src"]

/-- A directory two names below another one: in `first`, and there in `second`. -/
def TwoBelow (root dir first second : String) : Prop :=
  Path.cleanNames dir = Path.cleanNames root ++ [first.toList, second.toList]

instance (root dir first second : String) : Decidable (TwoBelow root dir first second) :=
  inferInstanceAs (Decidable (_ = _))

/-- The cache begins with a part that is not empty, and goes on to the name `src`. -/
theorem exists_cacheParts (home : String) : ∃ first rest before, first ≠ "" ∧
    Path.walkedAlong first rest = "src".toList :: before ∧
    ∀ further, Path.join (home :: "pkg" :: "src" :: further) = Path.join (first :: (rest ++ further)) := by
  have source : FileTree.IsProper "src" := ⟨by decide, by decide, by decide⟩
  by_cases nowhere : home = ""
  · subst nowhere
    exact ⟨"pkg", ["src"], [['p', 'k', 'g']], by decide, by decide, fun further => rfl⟩
  · refine ⟨home, ["pkg", "src"], Path.walkedAlong home ["pkg"], nowhere, ?_, fun further => rfl⟩
    rw [show ["pkg", "src"] = ["pkg"] ++ ["src"] from rfl, Path.walkedAlong_append]
    exact Path.follow_of_isProper source (Path.isAbsolute home) (Path.walkedAlong home ["pkg"])

/-- The directory of a version lies two names below the cache if and only if the name and the version
are single names. -/
theorem cacheDir_twoBelow_iff (home name version : String) :
    TwoBelow (cacheRoot home) (cacheDir home name version) (standardName name) version ↔
      Path.IsSegment (standardName name) ∧ Path.IsSegment version := by
  obtain ⟨first, rest, before, given, walked, parts⟩ := exists_cacheParts home
  have root : Path.cleanNames (cacheRoot home) = ("src".toList :: before).reverse := by
    rw [cacheRoot, parts [], List.append_nil, Path.cleanNames_join given, walked]
  have dir : Path.cleanNames (cacheDir home name version) =
      ((Path.names (standardName name).toList ++ Path.names version.toList).foldl
        (Path.follow (Path.isAbsolute first)) ("src".toList :: before)).reverse := by
    rw [cacheDir, parts, Path.cleanNames_join given, Path.walkedAlong_append, walked]
    simp
  have named : "src".toList ≠ ['.', '.'] := by decide
  rw [TwoBelow]
  constructor
  · intro below
    -- The names of a clean path hold no slash, so each text is followed as one name.
    have plain : ∀ text ∈ [(standardName name).toList, version.toList], '/' ∉ text := by
      intro text member
      have inside : text ∈ Path.cleanNames (cacheDir home name version) := by
        rw [below]
        exact List.mem_append_right _ member
      exact Path.slash_not_mem_of_mem_cleanNames inside
    rw [root, dir, List.reverse_eq_iff] at below
    exact (Path.foldl_two_iff named ⟨plain _ (by simp), plain _ (by simp)⟩).mp (by simpa using below)
  · intro single
    rw [root, dir, (Path.foldl_two_iff named ⟨single.1.plain, single.2.plain⟩).mpr single]
    simp

/-- The directory that is tested for a version is the one that it is loaded from. -/
theorem join_dir_cacheDir (home name version : String) :
    Path.join [Path.dir (cacheDir home name "x"), version] = cacheDir home name version := by
  obtain ⟨first, rest, before, given, _, parts⟩ := exists_cacheParts home
  have dirs : ∀ version, cacheDir home name version =
      Path.join (first :: ((rest ++ [standardName name]) ++ [version])) := by
    intro version
    rw [cacheDir, parts, List.append_assoc]
    rfl
  rw [dirs, dirs]
  exact Path.join_dir_join given _ ⟨⟨by decide, by decide, by decide⟩, by decide⟩ version

/-! ## Versions -/

/-- A character of a version. -/
def segmentChar (c : Char) : Char := if isSegmentChar c then c else '_'

theorem segmentChar_eq_dot {c : Char} : segmentChar c = '.' ↔ c = '.' := by
  unfold segmentChar
  split
  · rfl
  · next other =>
    constructor
    · intro dot
      cases dot
    · rintro rfl
      exact absurd (by decide) other

theorem segmentChar_ne_slash (c : Char) : segmentChar c ≠ '/' := by
  unfold segmentChar
  split
  · next segment =>
    rintro rfl
    exact absurd segment (by decide)
  · decide

/-- Every version is a single name, except for those of the revisions that are dots. -/
theorem isSegment_pathSegment_iff (rev : String) :
    Path.IsSegment (pathSegment rev) ↔ Text.trim rev ≠ "." ∧ Text.trim rev ≠ ".." := by
  have same : ∀ text : String, Text.trim rev = text ↔ Text.trimChars rev.toList = text.toList := by
    intro text
    rw [Text.trim, ← String.toList_inj, String.toList_ofList]
  simp only [ne_eq, same]
  by_cases blank : Text.trimChars rev.toList = []
  · have head : pathSegment rev = "head" := by rw [pathSegment, blank]
    rw [head, blank]
    exact ⟨fun _ => ⟨by decide, by decide⟩, fun _ => ⟨⟨by decide, by decide, by decide⟩, by decide⟩⟩
  · have chars : (pathSegment rev).toList = (Text.trimChars rev.toList).map segmentChar := by
      unfold pathSegment
      split
      · next nothing => exact absurd nothing blank
      · exact String.toList_ofList
    have dots : ∀ text : String, (∀ c ∈ text.toList, c = '.') →
        (pathSegment rev = text ↔ Text.trimChars rev.toList = text.toList) := by
      intro text all
      rw [← String.toList_inj, chars]
      generalize text.toList = dots at all
      generalize Text.trimChars rev.toList = trimmed
      induction dots generalizing trimmed with
      | nil => simp
      | cons c rest ih =>
        obtain ⟨rfl, later⟩ := List.forall_mem_cons.mp all
        cases trimmed with
        | nil => simp
        | cons d others => simp [segmentChar_eq_dot, ih later]
    rw [← dots "." (by simp), ← dots ".." (by simp)]
    constructor
    · exact fun segment => segment.proper.2
    · refine fun other => ⟨⟨?_, other⟩, ?_⟩
      · exact (pathSegment_ink rev).1
      · rw [chars]
        simp [segmentChar_ne_slash]

/-! ## Dependencies -/

variable {draws : Draws} {m parent n : Manifest} {name cwd home : String} {source : Source}
  {files files' : FileTree} {f : Fetched}

/-- A directory of the cache that is there is taken for the sources of the revision. -/
theorem fetch_reused (draws : Draws) (parent : Manifest) {made tree : FileTree}
    (remote : source.path = "") (url : Text.trim source.git ≠ "")
    (given : Text.trim source.rev ≠ "") (somewhere : home ≠ "")
    (room : files.mkdirAll (Path.absolute cwd (Path.dir (cacheDir home name "x"))) = .ok made)
    (there : made.get (Path.absolute cwd (cacheDir home name (pathSegment (Text.trim source.rev)))) =
      .ok tree) :
    fetch draws cwd home parent name source files = .ok
      { package :=
          { name := name, version := pathSegment (Text.trim source.rev),
            source := "git+" ++ Text.trim source.git ++ "@" ++ Text.trim source.rev,
            checksum := checksum (cacheDir home name (pathSegment (Text.trim source.rev))) tree }
        dir := cacheDir home name (pathSegment (Text.trim source.rev)) } made := by
  rw [fetch_run, if_neg (not_not.mpr remote), fetchCached_run, if_neg url, if_neg somewhere, room]
  simp only [cachedPackage, revision?_of_rev given, if_neg given, join_dir_cacheDir, there,
    Except.toOption]

/-- A repository dependency is loaded from the directory of the cache that was tested for it, and has
the checksum of what is there. -/
theorem locate_cached (remote : source.path = "")
    (located : locate draws cwd home parent name source files = .ok (f, n) files') :
    f.dir = cacheDir home name (pathSegment (Text.trim source.rev)) ∧
    (∃ tree, files'.get (Path.absolute cwd f.dir) = .ok tree ∧
      f.package.checksum = checksum f.dir tree) ∧
    Manifest.loadFrom (draws (.dependencies name)) files' cwd (Path.join [f.dir, manifestName]) =
      .ok n := by
  obtain ⟨fetched, fetch, loaded, rfl⟩ := locate_ok located
  rcases fetch_ok fetch with ⟨given, _⟩ | ⟨_, _, _, _, cached⟩
  · exact absurd remote given
  · obtain ⟨_, tree, there, rfl⟩ := cachedPackage_ok cached
    rw [join_dir_cacheDir] at there
    exact ⟨rfl, ⟨tree, there, rfl⟩, loaded⟩

/-- A repository dependency of a manifest is tested for, loaded and checked in one directory of the
cache. It lies two names below the cache, in the name of the dependency and there in the version, if
and only if the name holds no slash and neither the name nor the revision is `.` or `..`. Whatever is
there counts as the sources of the revision. -/
theorem cached_two_below_iff (loaded : m.Loaded) (declared : (name, source) ∈ m.dependencies)
    (home : String) :
    (TwoBelow (cacheRoot home) (cacheDir home name (pathSegment source.rev)) name
        (pathSegment source.rev) ↔
      (name ≠ "." ∧ name ≠ ".." ∧ '/' ∉ name.toList) ∧ source.rev ≠ "." ∧ source.rev ≠ "..") ∧
    (∀ draws cwd parent files made tree, source.path = "" → source.rev ≠ "" → home ≠ "" →
      files.mkdirAll (Path.absolute cwd (Path.dir (cacheDir home name "x"))) = .ok made →
      made.get (Path.absolute cwd (cacheDir home name (pathSegment source.rev))) = .ok tree →
      ∃ f, fetch draws cwd home parent name source files = .ok f made ∧
        f.dir = cacheDir home name (pathSegment source.rev) ∧
        f.package.checksum = checksum f.dir tree) ∧
    ∀ draws cwd parent files f n files', source.path = "" →
      locate draws cwd home parent name source files = .ok (f, n) files' →
      f.dir = cacheDir home name (pathSegment source.rev) ∧
      (∃ tree, files'.get (Path.absolute cwd f.dir) = .ok tree ∧
        f.package.checksum = checksum f.dir tree) ∧
      Manifest.loadFrom (draws (.dependencies name)) files' cwd (Path.join [f.dir, manifestName]) =
        .ok n := by
  have tidy := loaded.tidy
  have member : name ∈ m.dependencies.names := List.mem_map_of_mem declared
  have trim : Text.trim source.rev = source.rev :=
    congrArg Source.rev (tidy.sources name source declared)
  refine ⟨?_, ?_, ?_⟩
  · have below := cacheDir_twoBelow_iff home name (pathSegment source.rev)
    rw [tidy.names name member, isSegment_pathSegment_iff, trim] at below
    rw [below]
    refine and_congr_left' ⟨fun segment => ?_, fun ⟨one, two, plain⟩ => ?_⟩
    · exact ⟨segment.proper.2.1, segment.proper.2.2, segment.plain⟩
    · exact ⟨⟨tidy.named name member, one, two⟩, plain⟩
  · intro draws cwd parent files made tree remote given somewhere room there
    have url : Text.trim source.git ≠ "" := by
      rw [show Text.trim source.git = source.git from
        congrArg Source.git (tidy.sources name source declared)]
      exact (loaded.located declared).resolve_left (not_not.mpr remote)
    rw [← trim] at given there
    have reused := fetch_reused draws parent remote url given somewhere room there
    rw [trim] at reused
    exact ⟨_, reused, rfl, rfl⟩
  · intro draws cwd parent files f n files' remote located
    have cached := locate_cached remote located
    rwa [trim] at cached

/-! ## A revision that is dots -/

/-- A package with a dependency at a revision, and one at the revision `..`. The sources of the first
are cached; a package also lies in the directory of the whole cache. -/
def pinned : FileTree := .directory [
  ("app", packageDirectory
    "name: app\ndependencies:\n  a:\n    git: u\n    rev: v1/2\n  b:\n    git: u\n    rev: ..\n"),
  ("home", .directory [("pkg", .directory [("src", .directory [
    ("a", .directory [("v1_2", packageDirectory "name: a\n")]),
    (manifestName, .file "name: other\n".toUTF8)])])])]

/-- The manifest of that package. -/
def pinnedApp : Manifest where
  path := "/app/package.yml"
  name := "app"
  version := ""
  entry := ""
  preludes := []
  dependencies := [("a", { git := "u", rev := "v1/2" }), ("b", { git := "u", rev := ".." })]

theorem load_pinnedApp : Manifest.load .asWritten pinned "/app/package.yml" = .ok pinnedApp :=
  eq_ok_of_toOption (by decide +kernel)

/-- The dependency `a` is resolved to the package that is two names below the cache. -/
theorem pinnedApp_two_below :
    TwoBelow (cacheRoot "/home") (cacheDir "/home" "a" (pathSegment "v1/2")) "a" (pathSegment "v1/2") ∧
    ∃ f n files,
      locate .asWritten "/" "/home" pinnedApp "a" { git := "u", rev := "v1/2" } pinned =
        .ok (f, n) files ∧
      f.dir = cacheDir "/home" "a" (pathSegment "v1/2") ∧
      Manifest.loadFrom .asWritten files "/" (Path.join [f.dir, manifestName]) = .ok n := by
  have declared : ("a", { git := "u", rev := "v1/2" }) ∈ pinnedApp.dependencies := List.mem_cons_self
  obtain ⟨below, _, cached⟩ := cached_two_below_iff ⟨_, _, _, load_pinnedApp⟩ declared "/home"
  refine ⟨below.mpr ⟨⟨by decide, by decide, by decide⟩, by decide, by decide⟩, ?_⟩
  have there : (match locate .asWritten "/" "/home" pinnedApp "a"
      { git := "u", rev := "v1/2" } pinned with
      | .ok found _ => some found.1.dir
      | .error _ _ => none) = some "/home/pkg/src/a/v1_2" := by
    decide +kernel
  cases located : locate .asWritten "/" "/home" pinnedApp "a" { git := "u", rev := "v1/2" } pinned with
  | error e files =>
    rw [located] at there
    cases there
  | ok found files =>
    obtain ⟨f, n⟩ := found
    obtain ⟨dir, _, loaded⟩ := cached .asWritten "/" pinnedApp pinned f n files rfl located
    exact ⟨f, n, files, rfl, dir, loaded⟩

/-- The dependency `b` is resolved to the package in the directory of the whole cache. -/
theorem pinnedApp_outside_cache :
    Manifest.load .asWritten pinned "/app/package.yml" = .ok pinnedApp ∧
    ("b", { git := "u", rev := ".." }) ∈ pinnedApp.dependencies ∧
    (match locate .asWritten "/" "/home" pinnedApp "b" { git := "u", rev := ".." } pinned with
      | .ok found _ => some (found.1.dir, found.2.name)
      | .error _ _ => none) = some ("/home/pkg/src", "other") ∧
    cacheDir "/home" "b" (pathSegment "..") = "/home/pkg/src" ∧
    ¬ TwoBelow (cacheRoot "/home") "/home/pkg/src" "b" (pathSegment "..") :=
  ⟨load_pinnedApp, by decide, by decide +kernel, by decide +kernel, by decide +kernel⟩

end Package

end Smpl
