import Smpl.Proofs.Installation

/-!
# What checksums notice

The checksum of a tree is made of the paths and the contents of its files, one after the other with
nothing in between. So the bytes alone do not say where a path or a file ends. They determine the
files together with the sizes of all paths and contents, and not without them: a byte can pass from
the contents of a file to its path, and installing does not see it.

Changes that leave the boundaries where they are, or move them one way only, are always noticed:
* to the contents of one file, or to its path if it keeps its place;
* when files are added or taken away, and all others stay as they are.

Installing changes nothing only if every package is up to date (`UpToDate`): it is locked with the
checksum that its tree has now.
-/

namespace Smpl.Package

/-! ## The bytes of some files -/

/-- The files that the checksum of a tree covers, in order: the path of each from the directory on,
and its contents. -/
def covered (tree : FileTree) : List (String × ByteArray) :=
  (tree.files isHidden).map fun (names, contents) => (relativePath names, contents)

/-- Files one after the other, each behind its path. -/
def joined : List (String × ByteArray) → ByteArray
  | [] => .empty
  | (path, contents) :: rest => path.toUTF8 ++ contents ++ joined rest

/-- The number of bytes of the path and of the contents of each file. -/
def sizes (files : List (String × ByteArray)) : List (Nat × Nat) :=
  files.map fun (path, contents) => (path.toUTF8.size, contents.size)

theorem hashInput_eq (tree : FileTree) : hashInput tree = joined (covered tree) := by
  have general : ∀ (files : List (List String × ByteArray)) (bytes : ByteArray),
      files.foldl (fun bytes (names, contents) =>
        bytes ++ (relativePath names).toUTF8 ++ contents) bytes =
      bytes ++ joined (files.map fun (names, contents) => (relativePath names, contents)) := by
    intro files
    induction files with
    | nil => exact fun bytes => ByteArray.append_empty.symm
    | cons first rest ih =>
      intro bytes
      rw [List.foldl_cons, ih, List.map_cons, joined]
      simp only [ByteArray.append_assoc]
  rw [hashInput, general, ByteArray.empty_append, covered]

theorem joined_append (files further : List (String × ByteArray)) :
    joined (files ++ further) = joined files ++ joined further := by
  induction files with
  | nil => exact ByteArray.empty_append.symm
  | cons first rest ih =>
    rw [List.cons_append, joined, ih, joined]
    simp only [ByteArray.append_assoc]

/-- With the sizes known, the bytes can be cut up again in one way only. -/
theorem eq_of_joined_eq {files files' : List (String × ByteArray)}
    (same : joined files = joined files') (bounds : sizes files = sizes files') : files = files' := by
  induction files generalizing files' with
  | nil =>
    cases files' with
    | nil => rfl
    | cons first' rest' => cases bounds
  | cons first rest ih =>
    cases files' with
    | nil => cases bounds
    | cons first' rest' =>
      obtain ⟨path, contents⟩ := first
      obtain ⟨path', contents'⟩ := first'
      simp only [sizes, List.map_cons, List.cons.injEq, Prod.mk.injEq] at bounds
      obtain ⟨⟨pathSize, size⟩, later⟩ := bounds
      have firstSize : (path.toUTF8 ++ contents).size = (path'.toUTF8 ++ contents').size := by
        rw [ByteArray.size_append, ByteArray.size_append, pathSize, size]
      obtain ⟨here, behind⟩ := (ByteArray.append_eq_append_iff_of_size_eq_left firstSize).mp same
      obtain ⟨samePath, rfl⟩ := (ByteArray.append_eq_append_iff_of_size_eq_left pathSize).mp here
      rw [String.toByteArray_inj.mp samePath, ih behind later]

/-- A single file that is changed in its contents only, or in its path only. -/
theorem eq_of_joined_eq_of_single {before after : List (String × ByteArray)} {path path' : String}
    {contents contents' : ByteArray} (partly : path = path' ∨ contents = contents')
    (same : joined (before ++ (path, contents) :: after) =
      joined (before ++ (path', contents') :: after)) :
    (path, contents) = (path', contents') := by
  rw [joined_append, joined_append, ByteArray.append_right_inj] at same
  have here : path.toUTF8 ++ contents = path'.toUTF8 ++ contents' :=
    (ByteArray.append_left_inj _).mp same
  rcases partly with rfl | rfl
  · rw [(ByteArray.append_right_inj _).mp here]
  · rw [String.toByteArray_inj.mp ((ByteArray.append_left_inj _).mp here)]

/-- Files whose paths have a name cannot be added without adding bytes. -/
theorem eq_of_joined_eq_of_sublist {files files' : List (String × ByteArray)}
    (fewer : files.Sublist files') (named : ∀ f ∈ files', f.1 ≠ "")
    (same : joined files = joined files') : files = files' := by
  have general : (joined files).size ≤ (joined files').size ∧
      ((joined files).size = (joined files').size → files = files') := by
    clear same
    induction fewer with
    | slnil => simp
    | cons first fewer ih =>
      obtain ⟨here, later⟩ := List.forall_mem_cons.mp named
      have added : 0 < first.1.toUTF8.size := by
        rw [String.toUTF8_eq_toByteArray, String.size_toByteArray]
        exact Nat.pos_of_ne_zero (mt String.utf8ByteSize_eq_zero_iff.mp here)
      have less := (ih later).1
      simp only [joined, ByteArray.size_append]
      omega
    | cons_cons first fewer ih =>
      obtain ⟨less, equal⟩ := ih (List.forall_mem_cons.mp named).2
      simp only [joined, ByteArray.size_append]
      refine ⟨by omega, fun total => ?_⟩
      rw [equal (by omega)]
  exact general.2 (congrArg ByteArray.size same)

/-! ## Installing -/

variable {draws : Draws} {cwd home name : String} {parent m : Manifest} {source : Source}
  {l : Lockfile} {files files' : FileTree} {s : InstallState}

/-- Packages that change nothing are there already. -/
theorem Lockfile.agrees_of_upsertAll {resolved : Table LockedPackage} {start : Bool × Lockfile}
    (unchanged : (upsertAll start resolved).1 = false) :
    start.1 = false ∧
    ∀ e ∈ resolved, ∃ old, start.2.find? e.2.name = some old ∧ old.agrees e.2 = true := by
  induction resolved generalizing start with
  | nil => exact ⟨unchanged, nofun⟩
  | cons first rest ih =>
    have after : (upsertAll (start.1 || (start.2.upsert first.2).1, (start.2.upsert first.2).2)
        rest).1 = false := unchanged
    obtain ⟨neither, later⟩ := ih after
    obtain ⟨before, here⟩ := Bool.or_eq_false_iff.mp neither
    obtain ⟨old, found, agrees⟩ : ∃ old, start.2.find? first.2.name = some old ∧
        old.agrees first.2 = true := by
      rw [upsert] at here
      split at here
      · next old found =>
        split at here
        · next agrees => exact ⟨old, found, agrees⟩
        · cases here
      · cases here
    rw [upsert_of_agrees found agrees] at later
    exact ⟨before, List.forall_mem_cons.mpr ⟨⟨old, found, agrees⟩, later⟩⟩

/-- A resolved package is locked with the checksum it has. If it comes from a local path, that is the
checksum of the tree there. -/
def UpToDate (l : Lockfile) (files : FileTree) (f : Fetched) : Prop :=
  ∃ p, l.find? f.package.name = some p ∧ p.checksum = f.package.checksum ∧
    ∀ path, f.package.source = "path+" ++ path →
      ∃ tree, files.stat f.dir = .ok tree ∧ p.checksum = checksum f.dir tree

theorem checksum_of_locate {f : Fetched}
    (located : locate draws cwd home parent name source files = .ok (f, m) files) {path : String}
    (origin : f.package.source = "path+" ++ path) :
    ∃ tree, files.stat f.dir = .ok tree ∧ f.package.checksum = checksum f.dir tree := by
  obtain ⟨fetched, fetch, loaded, rfl⟩ := locate_ok located
  rcases fetch_ok fetch with ⟨_, _, there⟩ | ⟨_, _, _, _, cached⟩
  · obtain ⟨⟨tree, found⟩, dir⟩ := fetchPath_ok there
    rw [fetchPath_run found] at there
    split at there
    · cases there
    · cases there
      exact ⟨tree, found, rfl⟩
  · -- What comes from the cache says so in its source.
    obtain ⟨_, tree, _, rfl⟩ := cachedPackage_ok cached
    have firsts := congrArg (fun text => text.toList.head?) origin
    simp at firsts

/-- Where installing changes nothing, every package that it resolves is up to date. -/
theorem upToDate_of_install
    (run : install draws cwd home m { files := files, lock := l } = .ok false s) :
    ∀ f ∈ s.settled, UpToDate l s.files f := by
  have kept := resolveDependencies_keeps draws cwd home m { files := files, lock := l }
  rw [install_run] at run
  cases resolved : resolveDependencies draws cwd home m { files := files, lock := l } with
  | error e s' =>
    rw [resolved] at run
    cases run
  | ok _ s' =>
    rw [resolved] at run kept
    obtain ⟨visits, walk, settles⟩ := walk_of_resolveDependencies rfl resolved
    have unique : (s'.settled.map (·.package.name)).Nodup := by
      rw [settles.names]
      exact walk.nodup List.nodup_nil
    simp only [EStateM.Result.ok.injEq] at run
    obtain ⟨unchanged, rfl⟩ := run
    obtain ⟨_, held⟩ := Lockfile.agrees_of_upsertAll (Bool.or_eq_false_iff.mp unchanged).1
    have lock : s'.lock = l := kept.lock
    rw [lock] at held
    intro f settled
    have entry := (resolved_perm unique).mem_iff.mpr (List.mem_map_of_mem settled)
    obtain ⟨p, found, agrees⟩ := held _ entry
    simp only [LockedPackage.agrees, Bool.and_eq_true, decide_eq_true_eq] at agrees
    refine ⟨p, found, agrees.1.2, fun path origin => ?_⟩
    -- The walk has located the package in the files as they are now.
    obtain ⟨v, visited, rfl⟩ := List.mem_map.mp (settles.found ▸ settled)
    rcases walk.finds_of_mem (fun _ _ _ => trivial) (fun _ _ _ _ _ _ _ _ _ _ _ => trivial) v visited
      with earlier | ⟨parent, source, _, lasting⟩
    · cases earlier
    · rw [agrees.1.2]
      exact checksum_of_locate (lasting s'.files (.refl _)) origin

/-- The package of a dependency from a local path. -/
def localPackage (parent : Manifest) (name : String) (source : Source) (version : String)
    (m : Manifest) (checksum : String) : Fetched where
  package :=
    { name := name, version := version, source := "path+" ++ source.path, checksum := checksum,
      dependencies := m.dependencies.names }
  dir := parent.resolve source.path

theorem locate_local {tree : FileTree} {path version : String} (given : source.path ≠ "")
    (manifest : Path.join [parent.resolve source.path, manifestName] = path)
    (there : files.stat (parent.resolve source.path) = .ok tree)
    (directory : tree.isDirectory = true)
    (declares : declaredVersion (Manifest.loadFrom (draws (.version name)) files cwd path) = version)
    (loaded : Manifest.loadFrom (draws (.dependencies name)) files cwd path = .ok m) :
    locate draws cwd home parent name source files =
      .ok (localPackage parent name source version m (checksum (parent.resolve source.path) tree), m)
        files := by
  rw [locate_run, fetch_run, if_pos given, fetchPath_run there, if_neg (by simp [directory])]
  simp only [manifest, loaded, declares]
  rfl

/-! ## Noticed changes -/

/-- Equal bytes and equal sizes are the same as equal files. Even without the sizes the bytes tell
trees apart that differ in the contents of one file or in its path, or by files that one of them has
in addition. And when installing changes nothing, every package that it resolves is up to date. -/
theorem checksum_tells_apart (a b : FileTree) :
    (covered a = covered b ↔
      hashInput a = hashInput b ∧ sizes (covered a) = sizes (covered b)) ∧
    (∀ before after path path' contents contents',
      covered a = before ++ (path, contents) :: after →
      covered b = before ++ (path', contents') :: after →
      path = path' ∨ contents = contents' → hashInput a = hashInput b → covered a = covered b) ∧
    ((covered a).Sublist (covered b) → (∀ f ∈ covered b, f.1 ≠ "") →
      hashInput a = hashInput b → covered a = covered b) ∧
    (∀ draws cwd home m l files s,
      install draws cwd home m { files := files, lock := l } = .ok false s →
      ∀ f ∈ s.settled, UpToDate l s.files f) := by
  rw [hashInput_eq, hashInput_eq]
  refine ⟨⟨?_, ?_⟩, ?_, ?_, ?_⟩
  · intro same
    rw [same]
    exact ⟨rfl, rfl⟩
  · rintro ⟨same, bounds⟩
    exact eq_of_joined_eq same bounds
  · intro before after path path' contents contents' left right partly same
    rw [left, right] at same ⊢
    rw [eq_of_joined_eq_of_single partly same]
  · exact eq_of_joined_eq_of_sublist
  · exact fun draws cwd home m l files s => upToDate_of_install

/-- A package that has a manifest and some other files. -/
def packageWith (entries : List (String × FileTree)) : FileTree :=
  .directory ((manifestName, .file "name: a\n".toUTF8) :: entries)

/-- The package `app` depends on the package `a`. -/
def dependingOn (a : FileTree) : FileTree :=
  .directory [("a", a), ("app", packageDirectory "name: app\ndependencies:\n  a: ../a\n")]

/-- The manifest of `app`. -/
def dependent : Manifest where
  path := "/app/package.yml"
  name := "app"
  version := ""
  entry := ""
  preludes := []
  dependencies := [("a", { path := "../a" })]

/-- The manifest of `a`. -/
def independent : Manifest where
  path := "/a/package.yml"
  name := "a"
  version := ""
  entry := ""
  preludes := []
  dependencies := []

/-- The file `x` holds two bytes. -/
def twoBytes : FileTree := packageWith [("x", .file "yz".toUTF8)]

/-- The second byte is another one. -/
def editedByte : FileTree := packageWith [("x", .file "yw".toUTF8)]

/-- The file has another name. -/
def renamedFile : FileTree := packageWith [("w", .file "yz".toUTF8)]

/-- There is a second file, which is empty. -/
def addedFile : FileTree := packageWith [("x", .file "yz".toUTF8), ("y", .file .empty)]

/-- The first of the two bytes has passed to the path. -/
def movedByte : FileTree := packageWith [("xy", .file "z".toUTF8)]

theorem load_dependent :
    Manifest.load .asWritten (dependingOn twoBytes) "/app/package.yml" = .ok dependent :=
  eq_ok_of_toOption (by decide +kernel)

/-- The package `a` as `app` finds it. -/
theorem locate_dependingOn {a : FileTree} (directory : a.isDirectory = true)
    (loaded : (Manifest.load .asWritten (dependingOn a) "/a/package.yml").toOption = some independent) :
    locate .asWritten "/app" "" dependent "a" { path := "../a" } (dependingOn a) =
      .ok (localPackage dependent "a" { path := "../a" } defaultVersion independent (checksum "/a" a),
        independent) (dependingOn a) := by
  have dir : dependent.resolve "../a" = "/a" := by decide +kernel
  have manifest : Path.join ["/a", manifestName] = "/a/package.yml" := by decide +kernel
  have there : (dependingOn a).stat "/a" = .ok a := rfl
  have read : Manifest.loadFrom .asWritten (dependingOn a) "/app" "/a/package.yml" =
      .ok independent := by
    rw [Manifest.loadFrom, if_neg (by decide)]
    exact eq_ok_of_toOption loaded
  have given : ({ path := "../a" } : Source).path ≠ "" := by decide
  have version : declaredVersion (Manifest.loadFrom .asWritten (dependingOn a) "/app"
      "/a/package.yml") = defaultVersion := by
    rw [read]
    rfl
  rw [← dir] at manifest there
  have located : locate .asWritten "/app" "" dependent "a" { path := "../a" } (dependingOn a) = _ :=
    locate_local given manifest there directory version read
  rwa [dir] at located

theorem lasting_single (draws : Draws) (cwd home : String) (files : FileTree) :
    (Lasting draws cwd home files).Single := by
  intro parent name source f f' m m' found found'
  have same := (found files (.refl _)).symm.trans (found' files (.refl _))
  cases same
  exact ⟨rfl, rfl⟩

/-- The dependencies of `app` are installed, and installed again from files where `a` is located as
the same package. -/
theorem install_dependent {f : Fetched}
    (root : Manifest.load .asWritten files "/app/package.yml" = .ok dependent)
    (located : locate .asWritten "/app" "" dependent "a" { path := "../a" } files =
      .ok (f, independent) files)
    (located' : locate .asWritten "/app" "" dependent "a" { path := "../a" } files' =
      .ok (f, independent) files') :
    ∃ changed s,
      install .asWritten "/app" "" dependent { files := files, lock := .new "app" "" "" } =
        .ok changed s ∧
      s.settled = [f] ∧
      install .asWritten "/app" "" dependent { files := files', lock := s.lock } =
        .ok false { s with files := files' } := by
  -- Both times the walk enters `a` and finds nothing behind it.
  have walk : Walk (Lasting .asWritten "/app" "" files) [] [] dependent dependent.dependencies
      [⟨"a", f, independent⟩] := .enter nofun nofun (lasting_of_locate located) .finish .finish
  have walk' : Walk (Lasting .asWritten "/app" "" files') [] [] dependent dependent.dependencies
      [⟨"a", f, independent⟩] := .enter nofun nofun (lasting_of_locate located') .finish .finish
  have run := install_run .asWritten "/app" "" dependent { files := files, lock := .new "app" "" "" }
  rw [resolveDependencies_of_walk rfl walk] at run
  have tidy : dependent.Tidy := Manifest.Loaded.tidy ⟨_, _, _, root⟩
  obtain ⟨visits, installed⟩ :=
    installed_of_install tidy (Lockfile.tidy_new "app" "" "").normal run
  obtain rfl := walk.unique (lasting_single _ _ _ _) installed.walk
  exact ⟨_, _, run, rfl, installed.unchanged walk'⟩

/-- An edited byte, a new name and an added file are noticed, and where installing changes nothing the
package is up to date. -/
theorem twoBytes_told_apart :
    hashInput twoBytes ≠ hashInput editedByte ∧ hashInput twoBytes ≠ hashInput renamedFile ∧
    hashInput twoBytes ≠ hashInput addedFile ∧
    ∃ l s,
      install .asWritten "/app" "" dependent { files := dependingOn twoBytes, lock := l } =
        .ok false s ∧
      ∃ f ∈ s.settled, UpToDate l s.files f := by
  refine ⟨fun same => ?_, fun same => ?_, fun same => ?_, ?_⟩
  · have bounds : sizes (covered twoBytes) = sizes (covered editedByte) := by decide +kernel
    have equal := (checksum_tells_apart twoBytes editedByte).1.mpr ⟨same, bounds⟩
    exact absurd equal (by decide +kernel)
  · have split : covered twoBytes =
        [(manifestName, "name: a\n".toUTF8)] ++ ("x", "yz".toUTF8) :: [] := by decide +kernel
    have split' : covered renamedFile =
        [(manifestName, "name: a\n".toUTF8)] ++ ("w", "yz".toUTF8) :: [] := by decide +kernel
    have equal := (checksum_tells_apart twoBytes renamedFile).2.1 _ _ _ _ _ _ split split'
      (.inr rfl) same
    exact absurd equal (by decide +kernel)
  · have fewer : (covered twoBytes).Sublist (covered addedFile) := by decide +kernel
    have named : ∀ f ∈ covered addedFile, f.1 ≠ "" := by decide +kernel
    have equal := (checksum_tells_apart twoBytes addedFile).2.2.1 fewer named same
    exact absurd equal (by decide +kernel)
  · have located := locate_dependingOn (a := twoBytes) rfl (by decide +kernel)
    obtain ⟨_, s, _, settled, again⟩ := install_dependent load_dependent located located
    have locked := (checksum_tells_apart twoBytes twoBytes).2.2.2 _ _ _ _ _ _ _ again
    obtain ⟨f, member⟩ : ∃ f, f ∈ s.settled := by simp [settled]
    exact ⟨s.lock, _, again, f, member, locked f member⟩

theorem hashInput_movedByte : hashInput twoBytes = hashInput movedByte := by decide +kernel

/-- The bytes are the same before and after, so installing reports no change, but the files are not
the same. -/
theorem movedByte_unnoticed :
    hashInput twoBytes = hashInput movedByte ∧ covered twoBytes ≠ covered movedByte ∧
    ∃ changed s,
      install .asWritten "/app" "" dependent
        { files := dependingOn twoBytes, lock := .new "app" "" "" } =
        .ok changed s ∧
      install .asWritten "/app" "" dependent { files := dependingOn movedByte, lock := s.lock } =
        .ok false { s with files := dependingOn movedByte } := by
  have checksums : checksum "/a" twoBytes = checksum "/a" movedByte := by
    rw [checksum, checksum, hashInput_movedByte]
    rfl
  have located := locate_dependingOn (a := twoBytes) rfl (by decide +kernel)
  have located' := locate_dependingOn (a := movedByte) rfl (by decide +kernel)
  rw [← checksums] at located'
  obtain ⟨changed, s, first, _, second⟩ := install_dependent load_dependent located located'
  exact ⟨hashInput_movedByte, by decide +kernel, changed, s, first, second⟩

end Smpl.Package
