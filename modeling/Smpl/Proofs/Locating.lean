import Smpl.Package.Install
import Smpl.Proofs.DependencyWalk
import Smpl.Proofs.ManifestFiles

/-!
# Locating a dependency

To locate a dependency is to find its package and the manifest of it, for a declaration in another
manifest. All that this does to the files is to make directories, whether it succeeds or not
(`locate_harmless`). What was located once is located again, in the same place and with nothing left to
be made, for as long as nothing else is done to the files than that (`lasting_of_locate`). Another
command, which draws anew, locates the same if it reads the same manifest (`Lasting.redraw`).

A located package is in normal form, up to the order of its dependencies (`Found.agrees`).
-/

namespace Smpl.Package

variable {draws draws' : Draws} {cwd home : String} {parent m : Manifest} {name : String}
  {source : Source} {files files' grown : FileTree} {f : Fetched}

/-! ## Runs of finding -/

theorem Finding.get_run (files : FileTree) : (get : Finding FileTree) files = .ok files files := rfl

theorem Finding.set_run (files files' : FileTree) :
    (set files' : Finding PUnit) files = .ok ⟨⟩ files' := rfl

theorem Finding.lift_run {α : Type} (outcome : Except InstallError α) (files : FileTree) :
    Finding.lift outcome files =
      match outcome with
      | .ok a => .ok a files
      | .error e => .error e files := by
  cases outcome <;> rfl

theorem fetchCached_run (cwd home name : String) (source : Source) (files : FileTree) :
    fetchCached cwd home name source files =
      if Text.trim source.git = "" then .error (.noUrl name) files
      else if home = "" then .error (.noHome name) files
      else
        match files.mkdirAll (Path.absolute cwd (Path.dir (cacheDir home name "x"))) with
        | .error e => .error (.file name e) files
        | .ok made =>
          match cachedPackage made cwd home name (Path.dir (cacheDir home name "x")) source with
          | .error e => .error e made
          | .ok f => .ok f made := by
  unfold fetchCached
  split
  · rfl
  · split
    · rfl
    · cases made : files.mkdirAll (Path.absolute cwd (Path.dir (cacheDir home name "x"))) with
      | error e =>
        simp only [bind, EStateM.bind, Finding.get_run, made, Except.mapError, Finding.lift_run]
      | ok tree =>
        simp only [bind, EStateM.bind, Finding.get_run, made, Except.mapError, Finding.lift_run,
          Finding.set_run]
        cases cachedPackage tree cwd home name (Path.dir (cacheDir home name "x")) source <;> rfl

theorem fetch_run (draws : Draws) (cwd home : String) (parent : Manifest) (name : String)
    (source : Source) (files : FileTree) :
    fetch draws cwd home parent name source files =
      if source.path ≠ "" then
        match fetchPath draws files cwd parent name source with
        | .error e => .error e files
        | .ok f => .ok f files
      else fetchCached cwd home name source files := by
  unfold fetch
  split
  · simp only [bind, EStateM.bind, Finding.get_run]
    cases fetchPath draws files cwd parent name source <;> rfl
  · rfl

theorem locate_run (draws : Draws) (cwd home : String) (parent : Manifest) (name : String)
    (source : Source) (files : FileTree) :
    locate draws cwd home parent name source files =
      match fetch draws cwd home parent name source files with
      | .error e files' => .error e files'
      | .ok fetched files' =>
        match Manifest.loadFrom (draws (.dependencies name)) files' cwd
          (Path.join [fetched.dir, manifestName]) with
        | .error e => .error (.manifest name e) files'
        | .ok m =>
          .ok ({ fetched with package.dependencies := m.dependencies.names }, m) files' := by
  simp only [locate, bind, EStateM.bind, Finding.get_run, Finding.lift_run]
  cases fetch draws cwd home parent name source files with
  | error e files' => rfl
  | ok fetched files' =>
    dsimp only
    cases Manifest.loadFrom (draws (.dependencies name)) files' cwd
      (Path.join [fetched.dir, manifestName]) <;> rfl

theorem fetchPath_ne_tooDeep (draws : Draws) (files : FileTree) (cwd : String) (parent : Manifest)
    (name : String) (source : Source) :
    fetchPath draws files cwd parent name source ≠ .error .tooDeep := by
  intro failed
  simp only [fetchPath, bind, Except.bind] at failed
  cases stat : files.stat (parent.resolve source.path) with
  | error e =>
    rw [stat] at failed
    cases failed
  | ok tree =>
    rw [stat] at failed
    dsimp only [Except.mapError] at failed
    split at failed <;> cases failed

theorem cachedPackage_ne_tooDeep (files : FileTree) (cwd home name versions : String)
    (source : Source) : cachedPackage files cwd home name versions source ≠ .error .tooDeep := by
  intro failed
  unfold cachedPackage at failed
  dsimp only at failed
  split at failed
  · cases failed
  · split at failed <;> cases failed

/-- The files only grow, and it is not the depth that is at fault. -/
def Harmless {α : Type} (files : FileTree) : EStateM.Result InstallError FileTree α → Prop
  | .ok _ files' => files.Grown files'
  | .error e files' => files.Grown files' ∧ e ≠ .tooDeep

theorem fetch_harmless (draws : Draws) (cwd home : String) (parent : Manifest) (name : String)
    (source : Source) (files : FileTree) :
    Harmless files (fetch draws cwd home parent name source files) := by
  rw [fetch_run]
  split
  · cases fetched : fetchPath draws files cwd parent name source with
    | error e => exact ⟨.refl _, fun same => fetchPath_ne_tooDeep _ _ _ _ _ _ (same ▸ fetched)⟩
    | ok f => exact .refl _
  · rw [fetchCached_run]
    split
    · exact ⟨.refl _, nofun⟩
    · split
      · exact ⟨.refl _, nofun⟩
      · cases made : files.mkdirAll (Path.absolute cwd (Path.dir (cacheDir home name "x"))) with
        | error e => exact ⟨.refl _, nofun⟩
        | ok tree =>
          have grown := FileTree.mkdirAll_grown made
          dsimp only
          cases cached : cachedPackage tree cwd home name (Path.dir (cacheDir home name "x")) source with
          | error e => exact ⟨grown, fun same => cachedPackage_ne_tooDeep _ _ _ _ _ _ (same ▸ cached)⟩
          | ok f => exact grown

theorem locate_harmless (draws : Draws) (cwd home : String) (parent : Manifest) (name : String)
    (source : Source) (files : FileTree) :
    Harmless files (locate draws cwd home parent name source files) := by
  have harmless := fetch_harmless draws cwd home parent name source files
  rw [locate_run]
  cases fetched : fetch draws cwd home parent name source files with
  | error e files' => rwa [fetched] at harmless
  | ok f files' =>
    rw [fetched] at harmless
    dsimp only
    cases Manifest.loadFrom (draws (.dependencies name)) files' cwd
      (Path.join [f.dir, manifestName]) with
    | error e => exact ⟨harmless, nofun⟩
    | ok m => exact harmless

/-! ## What is located stays -/

theorem checksum_same {tree tree' : FileTree} (same : FileTree.Same tree tree') (path : String) :
    checksum path tree' = checksum path tree := by
  unfold checksum hashInput
  rw [same.1, FileTree.files, FileTree.files, same.2]

theorem stat_grown (later : FileTree.Grown files grown) {path : String} {tree : FileTree}
    (there : files.stat path = .ok tree) :
    ∃ tree', grown.stat path = .ok tree' ∧ FileTree.Same tree tree' := by
  rw [FileTree.stat] at there
  cases found : files.get path with
  | error fault =>
    rw [found] at there
    cases there
  | ok below =>
    rw [found] at there
    cases there
    obtain ⟨tree', found', same⟩ := FileTree.get_grown later found
    exact ⟨tree', by rw [FileTree.stat, found']; rfl, same⟩

theorem fetchPath_run {tree : FileTree}
    (there : files.stat (parent.resolve source.path) = .ok tree) :
    fetchPath draws files cwd parent name source =
      if !tree.isDirectory then .error (.notDirectory name (parent.resolve source.path))
      else .ok
        { package :=
            { name := name
              version := declaredVersion (Manifest.loadFrom (draws (.version name)) files cwd
                (Path.join [parent.resolve source.path, manifestName]))
              source := "path+" ++ source.path
              checksum := checksum (parent.resolve source.path) tree }
          dir := parent.resolve source.path } := by
  simp only [fetchPath, bind, Except.bind, there, Except.mapError]
  rfl

theorem fetchPath_ok (fetched : fetchPath draws files cwd parent name source = .ok f) :
    (∃ tree, files.stat (parent.resolve source.path) = .ok tree) ∧
      f.dir = parent.resolve source.path := by
  simp only [fetchPath, bind, Except.bind] at fetched
  cases there : files.stat (parent.resolve source.path) with
  | error e =>
    rw [there] at fetched
    cases fetched
  | ok tree =>
    rw [there] at fetched
    dsimp only [Except.mapError] at fetched
    split at fetched
    · cases fetched
    · cases fetched
      exact ⟨⟨tree, rfl⟩, rfl⟩

theorem fetchPath_grown (later : FileTree.Grown files grown)
    (fetched : fetchPath draws files cwd parent name source = .ok f)
    (loaded : Manifest.loadFrom (draws (.dependencies name)) files cwd
      (Path.join [f.dir, manifestName]) = .ok m) :
    fetchPath draws grown cwd parent name source = .ok f := by
  -- The version comes from the manifest if it can be loaded, so its file has to be known to last.
  obtain ⟨⟨tree, there⟩, dir⟩ := fetchPath_ok fetched
  rw [dir] at loaded
  obtain ⟨tree', there', same⟩ := stat_grown later there
  rw [fetchPath_run there] at fetched
  rw [fetchPath_run there', Manifest.loadFrom_eq_grown later loaded, same.1, checksum_same same]
  exact fetched

theorem cachedPackage_ok {versions : String}
    (cached : cachedPackage files cwd home name versions source = .ok f) :
    Text.trim source.rev ≠ "" ∧ ∃ tree,
      files.get (Path.absolute cwd (Path.join [versions, pathSegment (Text.trim source.rev)])) =
        .ok tree ∧
      f = { package :=
              { name := name, version := pathSegment (Text.trim source.rev),
                source := "git+" ++ Text.trim source.git ++ "@" ++ Text.trim source.rev,
                checksum := checksum (cacheDir home name (pathSegment (Text.trim source.rev))) tree }
            dir := cacheDir home name (pathSegment (Text.trim source.rev)) } := by
  simp only [cachedPackage] at cached
  split at cached
  · cases cached
  · split at cached
    · cases cached
    · next tree found =>
      split at found
      · cases found
      · next given =>
        refine ⟨given, tree, ?_, (Except.ok.inj cached).symm⟩
        cases there : files.get (Path.absolute cwd (Path.join [versions,
            pathSegment (Text.trim source.rev)])) with
        | error fault =>
          rw [there] at found
          cases found
        | ok tree' =>
          rw [there] at found
          cases found
          rfl

theorem revision?_of_rev (given : Text.trim source.rev ≠ "") :
    source.revision? = some ⟨Text.trim source.rev, Text.trim source.rev⟩ := by
  simp only [Source.revision?, ne_eq, given, not_false_eq_true, if_true]

theorem cachedPackage_grown {versions : String} (later : FileTree.Grown files grown)
    (cached : cachedPackage files cwd home name versions source = .ok f) :
    cachedPackage grown cwd home name versions source = .ok f := by
  obtain ⟨given, tree, there, rfl⟩ := cachedPackage_ok cached
  obtain ⟨tree', there', same⟩ := FileTree.get_grown later there
  simp only [cachedPackage, revision?_of_rev given, if_neg given, there', Except.toOption,
    checksum_same same]

/-- What is located in a file tree and in all that grow from it, with nothing left to be made. -/
def Lasting (draws : Draws) (cwd home : String) (files : FileTree) : Finder Fetched :=
  fun parent name source f m => ∀ grown, files.Grown grown →
    locate draws cwd home parent name source grown = .ok (f, m) grown

theorem Lasting.mono (lasting : Lasting draws cwd home files parent name source f m)
    (later : FileTree.Grown files grown) : Lasting draws cwd home grown parent name source f m :=
  fun further more => lasting further (later.trans more)

/-- A dependency comes from a local path, or from the cache, where the directory of its versions was
made. -/
theorem fetch_ok (fetched : fetch draws cwd home parent name source files = .ok f files') :
    (source.path ≠ "" ∧ files' = files ∧ fetchPath draws files cwd parent name source = .ok f) ∨
    (source.path = "" ∧ Text.trim source.git ≠ "" ∧ home ≠ "" ∧
      files.mkdirAll (Path.absolute cwd (Path.dir (cacheDir home name "x"))) = .ok files' ∧
      cachedPackage files' cwd home name (Path.dir (cacheDir home name "x")) source = .ok f) := by
  rw [fetch_run] at fetched
  split at fetched
  · next given =>
    cases found : fetchPath draws files cwd parent name source with
    | error e =>
      rw [found] at fetched
      cases fetched
    | ok g =>
      rw [found] at fetched
      cases fetched
      exact .inl ⟨given, rfl, rfl⟩
  · next missing =>
    rw [fetchCached_run] at fetched
    split at fetched
    · cases fetched
    · next url =>
      split at fetched
      · cases fetched
      · next there =>
        cases made : files.mkdirAll (Path.absolute cwd (Path.dir (cacheDir home name "x"))) with
        | error e =>
          rw [made] at fetched
          cases fetched
        | ok tree =>
          simp only [made] at fetched
          cases cached : cachedPackage tree cwd home name (Path.dir (cacheDir home name "x")) source with
          | error e =>
            rw [cached] at fetched
            cases fetched
          | ok g =>
            rw [cached] at fetched
            cases fetched
            exact .inr ⟨not_not.mp missing, url, there, rfl, cached⟩

theorem fetch_lasting (fetched : fetch draws cwd home parent name source files = .ok f files')
    (loaded : Manifest.loadFrom (draws (.dependencies name)) files' cwd
      (Path.join [f.dir, manifestName]) = .ok m)
    (later : FileTree.Grown files' grown) :
    fetch draws cwd home parent name source grown = .ok f grown := by
  rw [fetch_run]
  rcases fetch_ok fetched with ⟨given, rfl, found⟩ | ⟨missing, url, there, made, cached⟩
  · rw [if_pos given, fetchPath_grown later found loaded]
  · rw [if_neg (not_not.mpr missing), fetchCached_run, if_neg url, if_neg there,
      FileTree.mkdirAll_again made later]
    simp only [cachedPackage_grown later cached]

theorem locate_ok (located : locate draws cwd home parent name source files = .ok (f, m) files') :
    ∃ fetched, fetch draws cwd home parent name source files = .ok fetched files' ∧
      Manifest.loadFrom (draws (.dependencies name)) files' cwd
        (Path.join [fetched.dir, manifestName]) = .ok m ∧
      f = { fetched with package.dependencies := m.dependencies.names } := by
  rw [locate_run] at located
  cases fetched : fetch draws cwd home parent name source files with
  | error e between =>
    rw [fetched] at located
    cases located
  | ok g between =>
    simp only [fetched] at located
    cases loaded : Manifest.loadFrom (draws (.dependencies name)) between cwd
      (Path.join [g.dir, manifestName]) with
    | error e =>
      rw [loaded] at located
      cases located
    | ok read =>
      rw [loaded] at located
      cases located
      exact ⟨g, rfl, loaded, rfl⟩

theorem loadFrom_of_locate
    (located : locate draws cwd home parent name source files = .ok (f, m) files') :
    Manifest.loadFrom (draws (.dependencies name)) files' cwd (Path.join [f.dir, manifestName]) =
      .ok m := by
  obtain ⟨fetched, -, loaded, rfl⟩ := locate_ok located
  exact loaded

theorem lasting_of_locate
    (located : locate draws cwd home parent name source files = .ok (f, m) files') :
    Lasting draws cwd home files' parent name source f m := by
  intro grown later
  obtain ⟨fetched, fetch, loaded, rfl⟩ := locate_ok located
  rw [locate_run, fetch_lasting fetch loaded later]
  simp only [Manifest.loadFrom_grown later loaded]

/-! ## What another command locates -/

/-- Two commands read the same manifest in a directory on an occasion, whatever each has drawn. -/
def SameRead (draws draws' : Draws) (files : FileTree) (cwd dir : String) (occasion : Occasion) :
    Prop :=
  Manifest.loadFrom (draws' occasion) files cwd (Path.join [dir, manifestName]) =
    Manifest.loadFrom (draws occasion) files cwd (Path.join [dir, manifestName])

theorem SameRead.mono {dir : String} {draw : Drawing} {occasion : Occasion}
    (same : SameRead draws draws' files cwd dir occasion) (later : FileTree.Grown files grown)
    (loaded : Manifest.loadFrom draw files cwd (Path.join [dir, manifestName]) = .ok m) :
    SameRead draws draws' grown cwd dir occasion := by
  rw [SameRead, Manifest.loadFrom_eq_grown later loaded, Manifest.loadFrom_eq_grown later loaded]
  exact same

theorem fetch_redraw (fetched : fetch draws cwd home parent name source files = .ok f files')
    (same : SameRead draws draws' files' cwd f.dir (.version name)) :
    fetch draws' cwd home parent name source files = .ok f files' := by
  rw [fetch_run]
  rcases fetch_ok fetched with ⟨given, rfl, found⟩ | ⟨missing, -, -, -, -⟩
  · obtain ⟨⟨tree, there⟩, dir⟩ := fetchPath_ok found
    rw [dir] at same
    rw [fetchPath_run there] at found
    rw [if_pos given, fetchPath_run there, same, found]
  -- Nothing is drawn for the cache.
  · rw [fetch_run, if_neg (not_not.mpr missing)] at fetched
    rw [if_neg (not_not.mpr missing), fetched]

/-- What one command has located for good, another one locates too if it reads the manifest there as
the first one did. -/
theorem Lasting.redraw (lasting : Lasting draws cwd home files parent name source f m)
    (version : SameRead draws draws' files cwd f.dir (.version name))
    (dependencies : SameRead draws draws' files cwd f.dir (.dependencies name)) :
    Lasting draws' cwd home files parent name source f m := by
  have there := loadFrom_of_locate (lasting files (.refl _))
  intro grown later
  have located := lasting grown later
  have version := version.mono later there
  have read := Eq.trans (dependencies.mono later there) (loadFrom_of_locate located)
  obtain ⟨fetched, fetch, -, rfl⟩ := locate_ok located
  rw [locate_run, fetch_redraw fetch version]
  simp only [read]

/-! ## The packages that are located -/

theorem isSpace_hexDigit {n : Nat} (digit : n < 16) : Text.isSpace (Text.hexDigit n) = false := by
  have all : ∀ n : Fin 16, Text.isSpace (Text.hexDigit n) = false := by decide
  exact all ⟨n, digit⟩

theorem isSpace_of_mem_hexDigits {width n : Nat} {c : Char} (member : c ∈ Text.hexDigits width n) :
    Text.isSpace c = false := by
  induction width with
  | zero => cases member
  | succ width ih =>
    rcases List.mem_cons.mp member with rfl | later
    · exact isSpace_hexDigit (Nat.mod_lt _ (by decide))
    · exact ih later

theorem isSpace_of_mem_ink {text : List Char} {c : Char}
    (ink : (text.all fun c => !Text.isSpace c) = true) (member : c ∈ text) :
    Text.isSpace c = false := by
  simpa using List.all_eq_true.mp ink c member

theorem trim_checksum (path : String) (tree : FileTree) :
    Text.trim (checksum path tree) = checksum path tree := by
  refine Text.trim_eq_self (Text.trimmed_of_forall fun c member => ?_)
  rw [checksum, String.toList_append] at member
  rcases List.mem_append.mp member with label | digits
  · exact isSpace_of_mem_ink (by decide) label
  · rw [Sha256.Digest.hex, String.toList_ofList, List.mem_flatMap] at digits
    obtain ⟨word, _, digit⟩ := digits
    exact isSpace_of_mem_hexDigits digit

theorem toNat_between {c : Char} {first last : UInt32}
    (between : (decide (first ≤ c.val) && decide (c.val ≤ last)) = true) :
    first.toNat ≤ c.toNat ∧ c.toNat ≤ last.toNat := by
  rw [Bool.and_eq_true, decide_eq_true_eq, decide_eq_true_eq] at between
  exact ⟨UInt32.le_iff_toNat_le.mp between.1, UInt32.le_iff_toNat_le.mp between.2⟩

theorem toNat_of_isAlphanum {c : Char} (alphanum : c.isAlphanum = true) :
    0x30 ≤ c.toNat ∧ c.toNat < 0x7B := by
  rcases (Bool.or_eq_true _ _).mp alphanum with letter | digit
  · rcases (Bool.or_eq_true _ _).mp letter with upper | lower
    · obtain ⟨low, high⟩ : 'A'.val ≤ c.val ∧ c.val ≤ 'Z'.val := of_decide_eq_true upper
      exact ⟨Nat.le_trans (by decide) (UInt32.le_iff_toNat_le.mp low),
        Nat.lt_of_le_of_lt (UInt32.le_iff_toNat_le.mp high) (by decide)⟩
    · obtain ⟨low, high⟩ := toNat_between lower
      exact ⟨Nat.le_trans (by decide) low, Nat.lt_of_le_of_lt high (by decide)⟩
  · obtain ⟨low, high⟩ := toNat_between digit
    exact ⟨low, Nat.lt_of_le_of_lt high (by decide)⟩

theorem isSpace_of_isSegmentChar {c : Char} (segment : isSegmentChar c = true) :
    Text.isSpace c = false := by
  -- All these characters lie strictly between the space and the next blank.
  have ascii : 0x2D ≤ c.toNat ∧ c.toNat < 0x7B := by
    simp only [isSegmentChar, Bool.or_eq_true, decide_eq_true_eq] at segment
    rcases segment with ((alphanum | rfl) | rfl) | rfl
    · have := toNat_of_isAlphanum alphanum
      omega
    · decide
    · decide
    · decide
  simp [Text.isSpace]
  omega

theorem pathSegment_ink (text : String) :
    pathSegment text ≠ "" ∧ ∀ c ∈ (pathSegment text).toList, Text.isSpace c = false := by
  unfold pathSegment
  split
  · exact ⟨by decide, fun c => isSpace_of_mem_ink (by decide)⟩
  · next inked =>
    constructor
    · intro empty
      have nothing := congrArg String.toList empty
      rw [String.toList_ofList] at nothing
      exact inked (List.map_eq_nil_iff.mp nothing)
    · intro c member
      rw [String.toList_ofList, List.mem_map] at member
      obtain ⟨d, _, rfl⟩ := member
      split
      · next segment => exact isSpace_of_isSegmentChar segment
      · decide

/-- A label and a text without blanks around it have none around them together. -/
theorem trim_label {label text : String}
    (ink : label.toList.head?.map Text.isSpace = some false) (given : text ≠ "")
    (trim : Text.trim text = text) : Text.trim (label ++ text) = label ++ text := by
  obtain ⟨first, head, inked⟩ := Option.map_eq_some_iff.mp ink
  refine Text.trim_eq_self ?_
  rw [String.toList_append]
  refine Text.trimmed_append ?_ ?_ ?_ (trim ▸ Text.trimmed_trim text)
  · intro nothing
    rw [nothing] at head
    cases head
  · exact fun nothing => given (String.toList_eq_nil_iff.mp nothing)
  · intro c same
    rw [head, Option.some.injEq] at same
    exact same ▸ inked

theorem trim_declaredVersion (draw : Drawing) (files : FileTree) (cwd path : String) :
    Text.trim (declaredVersion (Manifest.loadFrom draw files cwd path)) =
      declaredVersion (Manifest.loadFrom draw files cwd path) := by
  cases read : Manifest.loadFrom draw files cwd path with
  | error e =>
    rw [declaredVersion]
    decide
  | ok m =>
    rw [declaredVersion]
    split
    · decide
    · exact (Manifest.loaded_of_loadFrom read).tidy.version

/-- What is known of a package that was located: its manifest is a loaded one, its directory follows
from the declaration, and there are no blanks around its fields, provided there are none in the
declaration. -/
structure Found (home : String) (parent : Manifest) (name : String) (source : Source) (f : Fetched)
    (m : Manifest) : Prop where
  loaded : m.Loaded
  named : f.package.name = name
  declares : f.package.dependencies = m.dependencies.names
  placed : (source.path ≠ "" ∧ f.dir = parent.resolve source.path) ∨
    (source.path = "" ∧ home ≠ "" ∧ f.package.version ≠ "" ∧
      f.dir = cacheDir home name f.package.version)
  trimVersion : Text.trim f.package.version = f.package.version
  trimSource : Text.trim source.path = source.path → Text.trim f.package.source = f.package.source
  trimChecksum : Text.trim f.package.checksum = f.package.checksum

theorem found_of_fetchPath (given : source.path ≠ "")
    (fetched : fetchPath draws files cwd parent name source = .ok f)
    (loaded : Manifest.loadFrom (draws (.dependencies name)) files cwd
      (Path.join [f.dir, manifestName]) = .ok m) :
    Found home parent name source { f with package.dependencies := m.dependencies.names } m := by
  have manifest := Manifest.loaded_of_loadFrom loaded
  obtain ⟨⟨tree, there⟩, dir⟩ := fetchPath_ok fetched
  rw [fetchPath_run there] at fetched
  split at fetched
  · cases fetched
  · cases fetched
    refine ⟨manifest, rfl, rfl, .inl ⟨given, rfl⟩, trim_declaredVersion _ _ _ _, ?_, trim_checksum _ _⟩
    exact trim_label (by decide) given

theorem found_of_cachedPackage {versions : String} (missing : source.path = "") (there : home ≠ "")
    (cached : cachedPackage files cwd home name versions source = .ok f) (loaded : m.Loaded) :
    Found home parent name source { f with package.dependencies := m.dependencies.names } m := by
  obtain ⟨given, tree, _, same⟩ := cachedPackage_ok cached
  obtain ⟨segment, ink⟩ := pathSegment_ink (Text.trim source.rev)
  have named : f.package.name = name := by rw [same]
  have version : f.package.version = pathSegment (Text.trim source.rev) := by rw [same]
  have origin : f.package.source =
      "git+" ++ Text.trim source.git ++ "@" ++ Text.trim source.rev := by rw [same]
  have hash : f.package.checksum =
      checksum (cacheDir home name (pathSegment (Text.trim source.rev))) tree := by rw [same]
  have dir : f.dir = cacheDir home name (pathSegment (Text.trim source.rev)) := by rw [same]
  have ink' : Text.isSpace 'g' = false := by decide
  refine ⟨loaded, named, rfl, .inr ⟨missing, there, ?_, ?_⟩, ?_, ?_, ?_⟩
  · rw [version]
    exact segment
  · rw [dir, version]
  · rw [version]
    exact Text.trim_eq_self (Text.trimmed_of_forall ink)
  · intro _
    rw [origin]
    exact trim_label (by simp [ink']) given (Text.trim_trim _)
  · rw [hash]
    exact trim_checksum _ _

theorem found_of_locate
    (located : locate draws cwd home parent name source files = .ok (f, m) files') :
    Found home parent name source f m := by
  obtain ⟨fetched, fetch, loaded, rfl⟩ := locate_ok located
  rcases fetch_ok fetch with ⟨given, rfl, found⟩ | ⟨missing, _, there, _, cached⟩
  · exact found_of_fetchPath given found loaded
  · exact found_of_cachedPackage missing there cached (Manifest.loaded_of_loadFrom loaded)

/-- The normal form of a located package agrees with it. -/
theorem Found.agrees (found : Found home parent name source f m)
    (standard : standardName name = name) (trim : Text.trim source.path = source.path) :
    f.package.normalize.agrees f.package = true := by
  have spelled : f.package.dependencies.map standardName = f.package.dependencies := by
    rw [found.declares]
    exact (List.map_congr_left found.loaded.tidy.names).trans (List.map_id _)
  refine LockedPackage.agrees_iff.mpr ⟨?_, found.trimVersion,
    found.trimSource trim, found.trimChecksum, ?_⟩
  · rw [LockedPackage.normalize_name, found.named, standard]
  · rw [LockedPackage.normalize, spelled]
    exact sortStrings_perm _

end Smpl.Package
