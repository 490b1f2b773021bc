import Smpl.CommandLine
import Smpl.Proofs.LockfileMap
import Smpl.Proofs.Resolution

/-!
# Installing

Installing resolves the dependencies of a manifest and then brings the lockfile up to date. It is all
or nothing, and doing it twice is doing it once if the manifests are read alike both times
(`install_all_or_nothing`):

* if it fails, the lockfile stays as it was, and the command writes no file;
* if it succeeds, the lockfile has a package for each name that was resolved, and no other;
* after that, installing again changes nothing, unless something else is drawn from a manifest.

The rest of what one expects of it depends on the names. A name is resolved once, for the declaration
that is met first, and any other declaration of it is passed over. So the lockfile is exact, for all
declarations that can be reached, if and only if declarations of one name agree on the package
(`Installed.exact_iff`). Where they do not, a package that is depended on may be missing
(`overlappingApp_not_exact`).
-/

namespace Smpl

namespace Table

variable {α : Type}

theorem set_perm {name : String} {value : α} {table : Table α} (absent : name ∉ table.names) :
    (set name value table).Perm ((name, value) :: table) := by
  induction table with
  | nil => exact .refl _
  | cons entry rest ih =>
    obtain ⟨key, old⟩ := entry
    obtain ⟨other, later⟩ := not_or.mp (mt List.mem_cons.mpr absent)
    rw [set, if_neg (Ne.symm other)]
    split
    · exact .refl _
    · exact ((ih later).cons (key, old)).trans (.swap _ _ _)

/-- A table of entries under different names has just these entries. -/
theorem ofEntries_perm {entries : List (String × α)} (nodup : (entries.map Prod.fst).Nodup) :
    (ofEntries entries).Perm entries := by
  have general : ∀ (entries : List (String × α)) (table : Table α),
      ((table ++ entries).map Prod.fst).Nodup →
      (entries.foldl (fun table e => set e.1 e.2 table) table).Perm (table ++ entries) := by
    intro entries
    induction entries with
    | nil => exact fun table _ => by simp
    | cons first rest ih =>
      intro table nodup
      have middle : (table ++ first :: rest).Perm (first :: table ++ rest) := List.perm_middle
      have absent : first.1 ∉ table.names := by
        have distinct := (middle.map Prod.fst).nodup_iff.mp nodup
        rw [List.cons_append, List.map_cons, List.nodup_cons, List.map_append] at distinct
        exact fun member => distinct.1 (List.mem_append_left _ member)
      have step : (set first.1 first.2 table ++ rest).Perm (table ++ first :: rest) :=
        ((set_perm absent).append_right rest).trans middle.symm
      exact (ih _ ((step.map Prod.fst).nodup_iff.mpr nodup)).trans step
  exact general entries [] nodup

end Table

namespace Package

namespace Lockfile

/-! ## Bringing a lockfile up to date -/

/-- Each entry is a package under its own name, in the standard spelling, and no name stands twice. -/
structure Keyed (resolved : Table LockedPackage) : Prop where
  nodup : resolved.names.Nodup
  named : ∀ e ∈ resolved, e.2.name = e.1
  standard : ∀ e ∈ resolved, Package.standardName e.1 = e.1

theorem Keyed.tail {e : String × LockedPackage} {rest : Table LockedPackage}
    (keyed : Keyed (e :: rest)) : Keyed rest where
  nodup := (List.nodup_cons.mp keyed.nodup).2
  named e member := keyed.named e (List.mem_cons_of_mem _ member)
  standard e member := keyed.standard e (List.mem_cons_of_mem _ member)

/-- Puts packages one after the other, and tells whether that changes anything. -/
def upsertAll (start : Bool × Lockfile) (resolved : Table LockedPackage) : Bool × Lockfile :=
  resolved.foldl (fun now e => (now.1 || (now.2.upsert e.2).1, (now.2.upsert e.2).2)) start

theorem update_eq (l : Lockfile) (resolved : Table LockedPackage) :
    l.update resolved =
      ((upsertAll (false, l) resolved).1 ||
          ((upsertAll (false, l) resolved).2.retain resolved.names).1,
        ((upsertAll (false, l) resolved).2.retain resolved.names).2) := rfl

theorem find?_upsertAll {resolved : Table LockedPackage} (keyed : Keyed resolved) :
    ∀ start : Bool × Lockfile, start.2.Normal →
      (upsertAll start resolved).2.Normal ∧
      (∀ e ∈ resolved, (upsertAll start resolved).2.find? e.1 = some e.2.normalize) ∧
      (∀ name, Package.standardName name ∉ resolved.names →
        (upsertAll start resolved).2.find? name = start.2.find? name) := by
  -- What is put first is not overwritten, because no later entry has its name.
  induction resolved with
  | nil => exact fun start normal => ⟨normal, nofun, fun _ _ => rfl⟩
  | cons first rest ih =>
    intro start normal
    have named := keyed.named first List.mem_cons_self
    have standard := keyed.standard first List.mem_cons_self
    obtain ⟨fresh, _⟩ := List.nodup_cons.mp keyed.nodup
    have fits : start.2.Fits first.2 := .inl (by rw [named, standard])
    have put := find?_upsert normal fits
    obtain ⟨normal', holds, others⟩ := ih keyed.tail
      (start.1 || (start.2.upsert first.2).1, (start.2.upsert first.2).2) (normal_upsert normal)
    refine ⟨normal', ?_, ?_⟩
    · intro e member
      rcases List.mem_cons.mp member with rfl | later
      · refine (others e.1 (standard.symm ▸ fresh)).trans ?_
        rw [put, named, if_pos rfl]
      · exact holds e later
    · intro name absent
      obtain ⟨other, later⟩ := not_or.mp (mt List.mem_cons.mpr absent)
      refine (others name later).trans ?_
      rw [put, named, standard, if_neg other]

theorem find?_update {l : Lockfile} {resolved : Table LockedPackage} (normal : l.Normal)
    (keyed : Keyed resolved) :
    (l.update resolved).2.Normal ∧
    (∀ e ∈ resolved, (l.update resolved).2.find? e.1 = some e.2.normalize) ∧
    (∀ name, Package.standardName name ∉ resolved.names → (l.update resolved).2.find? name = none) := by
  obtain ⟨normal', holds, _⟩ := find?_upsertAll keyed (false, l) normal
  have spelled : resolved.names.map Package.standardName = resolved.names := by
    refine (List.map_congr_left fun name member => ?_).trans (List.map_id _)
    obtain ⟨e, there, rfl⟩ := List.mem_map.mp member
    exact keyed.standard e there
  rw [update_eq]
  refine ⟨normal_retain normal' _, ?_, ?_⟩
  · intro e member
    have there : e.1 ∈ resolved.names := List.mem_map_of_mem member
    rw [find?_retain, spelled, keyed.standard e member, if_pos there]
    exact holds e member
  · intro name absent
    rw [find?_retain, spelled, if_neg absent]

theorem mem_names_update {l : Lockfile} {resolved : Table LockedPackage} (normal : l.Normal)
    (keyed : Keyed resolved) (name : String) :
    name ∈ (l.update resolved).2.packages.map LockedPackage.name ↔ name ∈ resolved.names := by
  obtain ⟨normal', holds, others⟩ := find?_update normal keyed
  constructor
  · intro member
    obtain ⟨p, there, rfl⟩ := List.mem_map.mp member
    by_contra absent
    rw [← normal'.standardName there] at absent
    exact find?_eq_none (others p.name absent) there (normal'.standardName there).symm
  · intro member
    obtain ⟨e, there, rfl⟩ := List.mem_map.mp member
    obtain ⟨found, named⟩ := find?_eq_some (holds e there)
    rw [keyed.standard e there] at named
    exact List.mem_map.mpr ⟨_, found, named⟩

theorem upsert_of_agrees {l : Lockfile} {p old : LockedPackage} (found : l.find? p.name = some old)
    (agrees : old.agrees p = true) : l.upsert p = (false, l) := by
  simp only [upsert, found, agrees, if_true]

theorem update_eq_self {l : Lockfile} {resolved : Table LockedPackage} (keyed : Keyed resolved)
    (held : ∀ e ∈ resolved, ∃ old, l.find? e.1 = some old ∧ old.agrees e.2 = true)
    (only : ∀ p ∈ l.packages, p.name ∈ resolved.names) : l.update resolved = (false, l) := by
  have unchanged : ∀ rest : Table LockedPackage, rest ⊆ resolved →
      upsertAll (false, l) rest = (false, l) := by
    intro rest
    induction rest with
    | nil => exact fun _ => rfl
    | cons first rest ih =>
      intro subset
      obtain ⟨here, later⟩ := List.cons_subset.mp subset
      obtain ⟨old, found, agrees⟩ := held first here
      rw [← keyed.named first here] at found
      rw [upsertAll, List.foldl_cons, upsert_of_agrees found agrees]
      exact ih later
  have kept : l.packages.filter (fun p =>
      (resolved.names.map Package.standardName).contains p.name) = l.packages := by
    refine List.filter_eq_self.mpr fun p member => List.contains_iff_mem.mpr ?_
    obtain ⟨e, there, same⟩ := List.mem_map.mp (only p member)
    exact List.mem_map.mpr ⟨e.1, List.mem_map_of_mem there, (keyed.standard e there).trans same⟩
  rw [update_eq, unchanged resolved (List.Subset.refl _), retain, kept]
  simp

/-- A lockfile as it is loaded, or a new one. -/
def Loaded (l : Lockfile) : Prop :=
  (∃ files path, load files path = .ok l) ∨ ∃ root tool generated, l = new root tool generated

theorem Loaded.normal {l : Lockfile} (loaded : l.Loaded) : l.Normal := by
  rcases loaded with ⟨files, path, loaded⟩ | ⟨root, tool, generated, rfl⟩
  · rw [load] at loaded
    split at loaded
    · cases loaded
    · cases loaded
    · split at loaded
      · cases loaded
      · rw [ofText] at loaded
        split at loaded
        · cases loaded
        · cases loaded
          exact normal_normalize _
  · exact (tidy_new root tool generated).normal

end Lockfile

/-! ## Runs of installing -/

variable {draws draws' : Draws} {cwd home : String} {m : Manifest} {l : Lockfile} {files : FileTree}
  {changed : Bool} {s s' : InstallState} {visits : List (Visit Fetched)}

theorem install_run (draws : Draws) (cwd home : String) (m : Manifest) (s : InstallState) :
    install draws cwd home m s =
      match resolveDependencies draws cwd home m s with
      | .error e s' => .error e s'
      | .ok _ s' =>
        .ok (s'.lock.update s'.resolved).1 { s' with lock := (s'.lock.update s'.resolved).2 } := by
  simp only [install, bind, EStateM.bind]
  cases resolveDependencies draws cwd home m s <;> rfl

/-- What a walk from a manifest finds has its name in the standard spelling, and agrees with its own
normal form. -/
theorem agrees_of_walk (tidy : m.Tidy)
    (walk : Walk (Lasting draws cwd home files) [] [] m m.dependencies visits) :
    ∀ v ∈ visits, standardName v.name = v.name ∧
      v.found.package.normalize.agrees v.found.package = true := by
  let holds : Manifest → String → Source → Prop := fun _ name source =>
    standardName name = name ∧ Text.trim source.path = source.path
  have declared : ∀ m : Manifest, m.Tidy → ∀ name source, (name, source) ∈ m.dependencies →
      holds m name source :=
    fun m tidy name source member => ⟨tidy.names name (List.mem_map_of_mem member),
      tidy.paths name source member⟩
  intro v member
  rcases walk.finds_of_mem (declared m tidy) (fun parent name source f m _ lasting _ =>
    declared m (found_of_locate (lasting files (.refl _))).loaded.tidy) v member with
    earlier | ⟨parent, source, ⟨standard, trim⟩, lasting⟩
  · cases earlier
  · exact ⟨standard, (found_of_locate (lasting files (.refl _))).agrees standard trim⟩

theorem resolved_perm (unique : (s.settled.map (·.package.name)).Nodup) :
    s.resolved.Perm (s.settled.map fun f => (f.package.name, f.package)) := by
  refine Table.ofEntries_perm ?_
  rwa [List.map_map]

theorem names_resolved_perm (unique : (s.settled.map (·.package.name)).Nodup) :
    s.resolved.names.Perm (s.settled.map (·.package.name)) := by
  have perm := (resolved_perm unique).map Prod.fst
  rwa [List.map_map] at perm

theorem keyed_resolved (unique : (s.settled.map (·.package.name)).Nodup)
    (standard : ∀ name ∈ s.settled.map (·.package.name), standardName name = name) :
    Lockfile.Keyed s.resolved := by
  have entry : ∀ e ∈ s.resolved, ∃ f ∈ s.settled, (f.package.name, f.package) = e :=
    fun e member => List.mem_map.mp ((resolved_perm unique).subset member)
  refine ⟨(names_resolved_perm unique).nodup_iff.mpr unique, ?_, ?_⟩
  · intro e member
    obtain ⟨f, _, rfl⟩ := entry e member
    rfl
  · intro e member
    obtain ⟨f, there, rfl⟩ := entry e member
    exact standard f.package.name (List.mem_map_of_mem there)

/-- After an installation: the packages resolved are those of a walk over what is there, and the
lockfile holds their normal forms and nothing else. -/
structure Installed (draws : Draws) (cwd home : String) (m : Manifest) (s : InstallState)
    (visits : List (Visit Fetched)) : Prop where
  walk : Walk (Lasting draws cwd home s.files) [] [] m m.dependencies visits
  settles : Settles visits s
  agrees : ∀ v ∈ visits, v.found.package.normalize.agrees v.found.package = true
  keyed : Lockfile.Keyed s.resolved
  holds : ∀ v ∈ visits, s.lock.find? v.name = some v.found.package.normalize
  names : ∀ name, name ∈ s.lock.packages.map LockedPackage.name ↔ name ∈ visits.map Visit.name

theorem installed_of_install (tidy : m.Tidy) (normal : l.Normal)
    (run : install draws cwd home m { files := files, lock := l } = .ok changed s) :
    ∃ visits, Installed draws cwd home m s visits := by
  have kept := resolveDependencies_keeps draws cwd home m { files := files, lock := l }
  rw [install_run] at run
  cases resolved : resolveDependencies draws cwd home m { files := files, lock := l } with
  | error e s' =>
    rw [resolved] at run
    cases run
  | ok _ s' =>
    rw [resolved] at run kept
    cases run
    obtain ⟨visits, walk, settles⟩ := walk_of_resolveDependencies rfl resolved
    have agrees := agrees_of_walk tidy walk
    have unique : (s'.settled.map (·.package.name)).Nodup := by
      rw [settles.names]
      exact walk.nodup List.nodup_nil
    have keyed : Lockfile.Keyed s'.resolved := by
      refine keyed_resolved unique ?_
      rw [settles.names]
      exact List.forall_mem_map.mpr fun v member => (agrees v member).1
    have normal' : s'.lock.Normal := by
      have same : s'.lock = l := kept.lock
      rwa [same]
    obtain ⟨_, holds, _⟩ := Lockfile.find?_update normal' keyed
    refine ⟨visits, walk, ⟨settles.found, settles.named⟩, fun v member => (agrees v member).2, keyed,
      ?_, ?_⟩
    · intro v member
      have settled : v.found ∈ s'.settled := settles.found ▸ List.mem_map_of_mem member
      have entry := (resolved_perm unique).mem_iff.mpr (List.mem_map_of_mem settled)
      have found := holds _ entry
      rwa [settles.named v member] at found
    · intro name
      rw [← settles.names, ← (names_resolved_perm unique).mem_iff]
      exact Lockfile.mem_names_update normal' keyed name

theorem Installed.unique (installed : Installed draws cwd home m s visits) :
    (s.settled.map (·.package.name)).Nodup := by
  rw [installed.settles.names]
  exact installed.walk.nodup List.nodup_nil

/-- As long as the same packages are found, installing changes nothing. -/
theorem Installed.unchanged (installed : Installed draws cwd home m s visits)
    (walk : Walk (Lasting draws' cwd home files) [] [] m m.dependencies visits) :
    install draws' cwd home m { files := files, lock := s.lock } =
      .ok false { s with files := files } := by
  have run := resolveDependencies_of_walk (s := { files := files, lock := s.lock }) rfl walk
  rw [installed.settles.found] at run
  have unchanged : s.lock.update s.resolved = (false, s.lock) := by
    refine Lockfile.update_eq_self installed.keyed ?_ ?_
    · intro e member
      obtain ⟨f, settled, rfl⟩ := List.mem_map.mp ((resolved_perm installed.unique).subset member)
      rw [← installed.settles.found] at settled
      obtain ⟨v, visited, rfl⟩ := List.mem_map.mp settled
      refine ⟨v.found.package.normalize, ?_, installed.agrees v visited⟩
      rw [installed.settles.named v visited]
      exact installed.holds v visited
    · intro p member
      rw [(names_resolved_perm installed.unique).mem_iff, installed.settles.names]
      exact (installed.names p.name).mp (List.mem_map_of_mem member)
  have resolved : InstallState.resolved ⟨files, s.lock, s.settled⟩ = s.resolved := rfl
  rw [install_run, run]
  simp only [resolved, unchanged]

/-- Another command reads the manifests of the resolved packages as they were read. -/
def InstallState.Reread (s : InstallState) (draws draws' : Draws) (cwd : String) : Prop :=
  ∀ f ∈ s.settled, SameRead draws draws' s.files cwd f.dir (.version f.package.name) ∧
    SameRead draws draws' s.files cwd f.dir (.dependencies f.package.name)

theorem Installed.redraw (installed : Installed draws cwd home m s visits)
    (reread : s.Reread draws draws' cwd) :
    Walk (Lasting draws' cwd home s.files) [] [] m m.dependencies visits := by
  refine installed.walk.mono fun parent name source f n visited lasting => ?_
  have settled : f ∈ s.settled := installed.settles.found ▸ List.mem_map_of_mem visited
  have named : f.package.name = name := installed.settles.named _ visited
  obtain ⟨version, dependencies⟩ := reread f settled
  rw [named] at version dependencies
  exact lasting.redraw version dependencies

/-- Installing once more changes nothing. -/
theorem Installed.again (installed : Installed draws cwd home m s visits)
    (reread : s.Reread draws draws' cwd) :
    install draws' cwd home m { files := s.files, lock := s.lock } = .ok false s :=
  installed.unchanged (installed.redraw reread)

/-! ## What is declared -/

/-- What a declaration resolves to in a file tree, if the right thing is drawn. -/
def Resolves (cwd home : String) (files : FileTree) : Finder Fetched := fun parent name source f m =>
  ∃ draws files', locate draws cwd home parent name source files = .ok (f, m) files'

/-- All declarations of one name that can be reached resolve to packages that agree. -/
def Coherent (cwd home : String) (files : FileTree) (root : Manifest) : Prop :=
  ∀ parent parent' name source source' f f' m m',
    Declared (Resolves cwd home files) root parent name source →
    Declared (Resolves cwd home files) root parent' name source' →
    Resolves cwd home files parent name source f m →
    Resolves cwd home files parent' name source' f' m' → f.package.agrees f'.package = true

/-- A lockfile has the names of all declarations that can be reached and no others, and it finds under
each name what every declaration of it resolves to. -/
structure Exact (cwd home : String) (files : FileTree) (root : Manifest) (l : Lockfile) : Prop where
  names : ∀ name, name ∈ l.packages.map LockedPackage.name ↔
    ∃ parent source, Declared (Resolves cwd home files) root parent name source
  packages : ∀ parent name source f m, Declared (Resolves cwd home files) root parent name source →
    Resolves cwd home files parent name source f m →
    ∃ p, l.find? name = some p ∧ p.agrees f.package = true

theorem Exact.coherent (exact : Exact cwd home files m l) : Coherent cwd home files m := by
  intro parent parent' name source source' f f' n n' declared declared' resolves resolves'
  obtain ⟨p, found, agrees⟩ := exact.packages parent name source f n declared resolves
  obtain ⟨p', found', agrees'⟩ := exact.packages parent' name source' f' n' declared' resolves'
  rw [found, Option.some.injEq] at found'
  subst found'
  exact LockedPackage.agrees_trans (LockedPackage.agrees_symm agrees) agrees'

namespace Installed

variable (installed : Installed draws cwd home m s visits)
include installed

theorem walkResolves : Walk (Resolves cwd home s.files) [] [] m m.dependencies visits :=
  installed.walk.mono fun _ _ _ _ _ _ lasting => ⟨_, _, lasting s.files (.refl _)⟩

/-- If declarations of one name agree, what they declare in turn is resolved too. -/
theorem names_subset_of_leads (coherent : Coherent cwd home s.files m) {trail : List String}
    {parent : Manifest} (leads : Leads (Resolves cwd home s.files) m trail parent) :
    parent.dependencies.names ⊆ visits.map Visit.name := by
  induction leads with
  | here => exact installed.walk.mem_of_declared
  | @on trail parent n name source f leads member resolves ih =>
    obtain ⟨v, visited, rfl⟩ := List.mem_map.mp (ih (List.mem_map_of_mem member))
    obtain ⟨parent', source', declared, resolves'⟩ := installed.walkResolves.declared v visited
    -- The package of this declaration agrees with the one resolved for the name, and packages that
    -- agree have the same dependencies.
    have agrees := coherent _ _ _ _ _ _ _ _ _ ⟨trail, leads, member⟩ declared resolves resolves'
    obtain ⟨_, _, _, _, perm⟩ := LockedPackage.agrees_iff.mp agrees
    obtain ⟨_, _, located⟩ := resolves
    obtain ⟨_, _, located'⟩ := resolves'
    rw [(found_of_locate located).declares, (found_of_locate located').declares] at perm
    obtain ⟨before, after, split⟩ := List.append_of_mem visited
    have earlier := installed.walk.ordered ordered_nil before v after split
    refine List.Subset.trans perm.subset (List.Subset.trans earlier ?_)
    rw [split, List.map_append]
    exact List.subset_append_left _ _

theorem exact_iff : Exact cwd home s.files m s.lock ↔ Coherent cwd home s.files m := by
  refine ⟨Exact.coherent, fun coherent => ?_⟩
  have visited : ∀ parent name source, Declared (Resolves cwd home s.files) m parent name source →
      name ∈ visits.map Visit.name := by
    rintro parent name source ⟨trail, leads, member⟩
    exact installed.names_subset_of_leads coherent leads (List.mem_map_of_mem member)
  constructor
  · intro name
    rw [installed.names]
    constructor
    · intro member
      obtain ⟨v, visited, rfl⟩ := List.mem_map.mp member
      obtain ⟨parent, source, declared, _⟩ := installed.walkResolves.declared v visited
      exact ⟨parent, source, declared⟩
    · rintro ⟨parent, source, declared⟩
      exact visited parent name source declared
  · intro parent name source f n declared resolves
    obtain ⟨v, member, rfl⟩ := List.mem_map.mp (visited parent name source declared)
    obtain ⟨parent', source', declared', resolves'⟩ := installed.walkResolves.declared v member
    refine ⟨_, installed.holds v member, LockedPackage.agrees_trans (installed.agrees v member) ?_⟩
    exact coherent _ _ _ _ _ _ _ _ _ declared' declared resolves' resolves

end Installed

/-! ## The command -/

/-- An installation that fails ends the command without any file written. -/
theorem runInstall_of_error {env : CommandLine.Environment} {created : Bool} {e : InstallError}
    (nearest : CommandLine.nearestManifest (env.draws .start) env.files env.cwd "." = .ok m)
    (homes : CommandLine.resolveHome env = .ok home)
    (lock : CommandLine.lockfileToUpdate env m = .ok (l, created))
    (failed : install env.draws env.cwd home m
      { files := env.files, lock := { l with tool := CommandLine.toolVersion } } = .error e s) :
    (CommandLine.runInstall env).code = 1 ∧ (CommandLine.runInstall env).files = s.files := by
  have outcome : CommandLine.runInstall env = CommandLine.installPackage env home m := by
    unfold CommandLine.runInstall
    simp only [nearest, homes]
  rw [outcome]
  unfold CommandLine.installPackage
  simp only [lock, failed, and_self]

theorem grown_of_install (run : install draws cwd home m s = .ok changed s') :
    s.files.Grown s'.files := by
  have kept := resolveDependencies_keeps draws cwd home m s
  rw [install_run] at run
  cases resolved : resolveDependencies draws cwd home m s with
  | error e between =>
    rw [resolved] at run
    cases run
  | ok _ between =>
    rw [resolved] at run kept
    cases run
    exact kept.files

theorem kept_of_error {e : InstallError} (failed : install draws cwd home m s = .error e s') :
    Kept s s' ∧ e ≠ .tooDeep := by
  have kept := resolveDependencies_keeps draws cwd home m s
  rw [install_run] at failed
  cases run : resolveDependencies draws cwd home m s with
  | ok _ between =>
    rw [run] at failed
    cases failed
  | error cause between =>
    rw [run] at failed kept
    cases failed
    exact ⟨kept, fun deep => resolveDependencies_ne_tooDeep draws cwd home m s s' (deep ▸ run)⟩

/-- An installation that fails leaves the lockfile as it was, and the command then writes no file. One
that succeeds leaves a lockfile with the names that are reached when every name stands for the package
it was resolved to, each with that package; it is exact for all declarations, whatever is drawn, if and
only if those of one name agree; and installing once more changes nothing, if the manifests of the
packages are read as before. -/
theorem install_all_or_nothing (loaded : m.Loaded) (lock : l.Loaded) (draws : Draws)
    (cwd home : String) (files : FileTree) :
    (match install draws cwd home m { files := files, lock := l } with
      | .error e s => s.lock = l ∧ files.Grown s.files ∧ e ≠ .tooDeep
      | .ok _ s =>
        files.Grown s.files ∧
        (∃ visits : List (Visit Fetched), visits.map Visit.found = s.settled ∧
          (∀ name, name ∈ s.lock.packages.map LockedPackage.name ↔ Reaches m visits name) ∧
          ∀ v ∈ visits,
            (∃ parent source, Declared (Resolves cwd home s.files) m parent v.name source ∧
              Resolves cwd home s.files parent v.name source v.found v.manifest) ∧
            ∃ p, s.lock.find? v.name = some p ∧ p.agrees v.found.package = true) ∧
        (Exact cwd home s.files m s.lock ↔ Coherent cwd home s.files m) ∧
        ∀ draws', s.Reread draws draws' cwd →
          install draws' cwd home m { files := s.files, lock := s.lock } = .ok false s) ∧
    (∀ (env : CommandLine.Environment) (created : Bool) (e : InstallError) (s : InstallState),
      CommandLine.nearestManifest (env.draws .start) env.files env.cwd "." = .ok m →
      CommandLine.resolveHome env = .ok home →
      CommandLine.lockfileToUpdate env m = .ok (l, created) →
      install env.draws env.cwd home m
        { files := env.files, lock := { l with tool := CommandLine.toolVersion } } = .error e s →
      (CommandLine.runInstall env).code = 1 ∧
        ∀ skips, (CommandLine.runInstall env).files.files skips = env.files.files skips) := by
  constructor
  · cases run : install draws cwd home m { files := files, lock := l } with
    | error e s =>
      obtain ⟨kept, shallow⟩ := kept_of_error run
      exact ⟨kept.lock, kept.files, shallow⟩
    | ok changed s =>
      obtain ⟨visits, installed⟩ := installed_of_install loaded.tidy lock.normal run
      refine ⟨grown_of_install run, ⟨visits, installed.settles.found, ?_, ?_⟩, installed.exact_iff,
        fun draws' => installed.again⟩
      · intro name
        rw [installed.names, installed.walk.names_iff]
      · intro v member
        exact ⟨installed.walkResolves.declared v member, _, installed.holds v member,
          installed.agrees v member⟩
  · intro env created e s nearest homes found failed
    obtain ⟨code, same⟩ := runInstall_of_error nearest homes found failed
    refine ⟨code, fun skips => ?_⟩
    rw [same]
    exact (kept_of_error failed).1.files.files_eq skips

/-! ## Two packages of one name -/

/-- The package `app` and its dependency `a` both depend on a package `b`, but not on the same one: that
of `app` depends on `d` in turn, and the one that `a` means is in the directory `c`. -/
def overlapping : FileTree := .directory [
  ("a", packageDirectory "name: a\ndependencies:\n  b: ../c\n"),
  ("app", packageDirectory "name: app\ndependencies:\n  a: ../a\n  b: ../b\n"),
  ("b", packageDirectory "name: b\ndependencies:\n  d: ../d\n"),
  ("c", packageDirectory "name: c\n"),
  ("d", packageDirectory "name: d\n")]

/-- The manifest of `app`. -/
def overlappingApp : Manifest where
  path := "/app/package.yml"
  name := "app"
  version := ""
  entry := ""
  preludes := []
  dependencies := [("a", { path := "../a" }), ("b", { path := "../b" })]

theorem install_of_placed {placed : List Placed} (given : placed ≠ [])
    (resolved : (match resolveDependencies draws cwd home m s with
      | .ok _ s' => s'.settled.map Fetched.placed
      | .error _ _ => []) = placed) :
    ∃ changed s', install draws cwd home m s = .ok changed s' ∧
      s'.settled.map Fetched.placed = placed := by
  rw [install_run]
  cases run : resolveDependencies draws cwd home m s with
  | error e s' =>
    rw [run] at resolved
    exact absurd resolved.symm given
  | ok _ s' =>
    rw [run] at resolved
    exact ⟨_, _, rfl, resolved⟩

theorem load_overlappingApp :
    Manifest.load .asWritten overlapping "/app/package.yml" = .ok overlappingApp :=
  eq_ok_of_toOption (by decide +kernel)

/-- Only the `b` of `a` is resolved, because it is met first. -/
theorem install_overlappingApp : ∃ changed s,
    install .asWritten "/" "" overlappingApp { files := overlapping, lock := .new "app" "" "" } =
        .ok changed s ∧
      s.settled.map Fetched.placed = [⟨"b", "/c"⟩, ⟨"a", "/a"⟩] :=
  install_of_placed (List.cons_ne_nil _ _) (by decide +kernel)

/-- The `b` of `app` can be located, and declares `d`. -/
theorem locate_overlappingApp : ∃ f m, ("d", { path := "../d" }) ∈ m.dependencies ∧
    ∀ grown, overlapping.Grown grown →
      Resolves "/" "" grown overlappingApp "b" { path := "../b" } f m := by
  have declares : (match locate .asWritten "/" "" overlappingApp "b" { path := "../b" } overlapping with
    | .ok (_, m) _ => some m.dependencies
    | .error _ _ => none) = some [("d", { path := "../d" })] := by
    decide +kernel
  cases located : locate .asWritten "/" "" overlappingApp "b" { path := "../b" } overlapping with
  | error e files =>
    rw [located] at declares
    cases declares
  | ok found files =>
    obtain ⟨f, m⟩ := found
    simp only [located, Option.some.injEq] at declares
    obtain ⟨_, fetched, _, _⟩ := locate_ok located
    rcases fetch_ok fetched with ⟨_, rfl, _⟩ | ⟨missing, _⟩
    · refine ⟨f, m, by simp [declares], fun grown later => ⟨.asWritten, grown, ?_⟩⟩
      exact lasting_of_locate located grown later
    · exact absurd missing (by decide)

theorem overlappingApp_settles : ∃ changed s,
    install .asWritten "/" "" overlappingApp { files := overlapping, lock := .new "app" "" "" } =
      .ok changed s ∧
    (Exact "/" "" s.files overlappingApp s.lock ↔ Coherent "/" "" s.files overlappingApp) ∧
    install .asWritten "/" "" overlappingApp { files := s.files, lock := s.lock } = .ok false s := by
  obtain ⟨changed, s, run, _⟩ := install_overlappingApp
  have outcome := (install_all_or_nothing ⟨_, _, _, load_overlappingApp⟩ (.inr ⟨"app", "", "", rfl⟩)
    .asWritten "/" "" overlapping).1
  rw [run] at outcome
  obtain ⟨_, _, exact_iff, again⟩ := outcome
  exact ⟨changed, s, run, exact_iff, again .asWritten fun _ _ => ⟨rfl, rfl⟩⟩

/-- The name `d` is declared by the package that `app` means, and is not in the lockfile. -/
theorem overlappingApp_not_exact : ∃ changed s,
    Manifest.load .asWritten overlapping "/app/package.yml" = .ok overlappingApp ∧
    install .asWritten "/" "" overlappingApp { files := overlapping, lock := .new "app" "" "" } =
      .ok changed s ∧
    (∃ parent source, Declared (Resolves "/" "" s.files) overlappingApp parent "d" source) ∧
    "d" ∉ s.lock.packages.map LockedPackage.name := by
  obtain ⟨changed, s, run, settled⟩ := install_overlappingApp
  have tidy : overlappingApp.Tidy := Manifest.Loaded.tidy ⟨_, _, _, load_overlappingApp⟩
  have normal : (Lockfile.new "app" "" "").Normal := (Lockfile.tidy_new "app" "" "").normal
  obtain ⟨visits, installed⟩ := installed_of_install tidy normal run
  obtain ⟨f, m, declares, resolves⟩ := locate_overlappingApp
  have grown : overlapping.Grown s.files := grown_of_install run
  refine ⟨changed, s, load_overlappingApp, run, ?_, ?_⟩
  · exact ⟨m, _, [] ++ ["b"], .on .here (by decide) (resolves s.files grown), declares⟩
  · have names := congrArg (List.map Placed.name) settled
    rw [List.map_map] at names
    rw [installed.names, ← installed.settles.names]
    exact fun member => absurd (names ▸ member) (by decide)

end Package

end Smpl
