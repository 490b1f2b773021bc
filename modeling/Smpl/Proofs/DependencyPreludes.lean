import Smpl.Proofs.CleanPaths
import Smpl.Proofs.LoadOrder

/-!
# The preludes of dependencies

A package is loaded together with what its manifest, and the manifests of its dependencies, declare. A
declaration is a name and a source; where the source leads depends on the manifest that it stands in.
Loading keeps what it has loaded by the name alone, though: the first declaration of a name that is met
is followed, and all others are taken to mean the same package.

* Before a package, some package is loaded under each name that it declares (`Assembled.ordered`).
* Each package that is loaded is in the directory that some declaration of its name leads to
  (`Assembled.found`).
* The package that is loaded under a name is the one that every declaration of it leads to, if and only
  if all declarations of one name lead to one directory (`Assembled.served_iff`).

Where two declarations of a name lead to two directories, the preludes in one of them are missing from
the program.
-/

namespace Smpl.Package

variable {w : Workspace} {store : Store} {root : Manifest} {entry : String} {bundle : Bundle}
  {s : LoadState}

/-! ## What is loaded -/

/-- A package that was loaded: the name it was loaded under, its directory, its manifest, and the
modules of its preludes. -/
structure Part extends Visit String where
  preludes : List Module

/-- The package that is loaded itself, after all its dependencies. -/
def Part.ofRoot (root : Manifest) (preludes : List Module) : Part :=
  { name := root.name, found := root.dir, manifest := root, preludes := preludes }

/-- `Declares p name source`: the manifest of `p` declares a dependency. -/
def Part.Declares (p : Part) (name : String) (source : Source) : Prop :=
  (name, source) ∈ p.manifest.dependencies

/-- The modules of a package are the preludes of its dependencies, each after those of its own
dependencies, the preludes of the package, and the entry. -/
structure Assembled (w : Workspace) (store : Store) (root : Manifest) (entry : String)
    (bundle : Bundle) (s : LoadState) (dependencies : List Part) (own : List Module) : Prop where
  done : s.done = dependencies.map fun p => p.placed
  modules : ∃ last, Member w root (entryOf root entry) last ∧
    bundle.modules = (dependencies.flatMap Part.preludes ++ own ++ [last]).map some
  blocks : ∀ p ∈ dependencies ++ [.ofRoot root own], Block w p.manifest p.preludes
  nodup : (dependencies.map fun p => p.name).Nodup
  found : ∀ p ∈ dependencies, ∃ owner ∈ dependencies ++ [.ofRoot root own], ∃ source,
    owner.Declares p.name source ∧
      Placement w store owner.manifest p.name source p.found p.manifest
  ordered : ∀ earlier owner later, dependencies ++ [.ofRoot root own] = earlier ++ owner :: later →
    ∀ name source, owner.Declares name source → ∃ p ∈ earlier, p ∈ dependencies ∧ p.name = name

/-- Every declaration is served: before the package that declares it, the package in the directory that
the declaration leads to was loaded under that name. -/
def Served (w : Workspace) (store : Store) (parts : List Part) : Prop :=
  ∀ earlier owner later, parts = earlier ++ owner :: later → ∀ name source, owner.Declares name source →
    ∃ p ∈ earlier, p.name = name ∧ ∃ dir, Path.clean dir = Path.clean p.found ∧
      Placement w store owner.manifest name source dir p.manifest

/-- All declarations of one name lead to one directory. -/
def OneDirectory (store : Store) (parts : List Part) : Prop :=
  ∀ p ∈ parts, ∀ p' ∈ parts, ∀ name source source', p.Declares name source →
    p'.Declares name source' →
    (store.dirOf p.manifest name source).map Path.clean =
      (store.dirOf p'.manifest name source').map Path.clean

/-! ## Directories of dependencies -/

theorem dirOf_ne_empty {parent : Manifest} {name dir : String} {source : Source}
    (placed : store.dirOf parent name source = .ok dir) : dir ≠ "" := by
  rw [Store.dirOf] at placed
  split at placed
  · next given =>
    cases placed
    rw [Manifest.resolve]
    split
    · exact given
    · exact Path.join_ne_empty (List.mem_cons_of_mem _ List.mem_cons_self) given
  · split at placed
    · cases placed
    · split at placed
      · cases placed
      · split at placed
        · cases placed
        · cases placed
          exact Path.join_ne_empty (List.mem_cons_of_mem _ List.mem_cons_self) (by decide)

/-- The manifest that is loaded depends on the clean form of the directory only. -/
theorem loadDependency_congr {name dir dir' : String} {m : Manifest} (given : dir ≠ "")
    (given' : dir' ≠ "") (same : Path.clean dir = Path.clean dir')
    (loaded : loadDependency w name dir = .ok m) : loadDependency w name dir' = .ok m := by
  rw [loadDependency_eq_ok] at loaded ⊢
  rwa [← Path.join_congr given given' same]

/-! ## Declarations -/

/-- What a walk finishes was found for a declaration in the manifest it starts from, or in one that it
finishes. -/
theorem Walk.found_inside {κ : Type} {finds : Finder κ} {out : List (Visit κ)}
    (walk : Walk finds [] [] root root.dependencies out) :
    ∀ v ∈ out, ∃ parent source, (parent = root ∨ ∃ u ∈ out, u.manifest = parent) ∧
      (v.name, source) ∈ parent.dependencies ∧ finds parent v.name source v.found v.manifest := by
  intro v member
  let holds : Manifest → String → Source → Prop := fun parent name source =>
    (parent = root ∨ ∃ u ∈ out, u.manifest = parent) ∧ (name, source) ∈ parent.dependencies
  have start : ∀ name source, (name, source) ∈ root.dependencies → holds root name source :=
    fun name source declared => ⟨.inl rfl, declared⟩
  rcases walk.finds_of_mem start (fun _ _ _ _ _ _ _ finished _ _ declared =>
    ⟨.inr ⟨_, finished, rfl⟩, declared⟩) v member with earlier | ⟨parent, source, ⟨inside, declared⟩, found⟩
  · cases earlier
  · exact ⟨parent, source, inside, declared, found⟩

/-- What stands before an element of a list is not the last element. -/
theorem subset_of_split {α : Type} {init earlier later : List α} {last x : α}
    (split : init ++ [last] = earlier ++ x :: later) : earlier ⊆ init := by
  rcases List.eq_nil_or_concat later with rfl | ⟨between, final, rfl⟩
  · obtain ⟨rfl, _⟩ := List.append_inj' split rfl
    exact List.Subset.refl _
  · rw [List.concat_eq_append, ← List.cons_append, ← List.append_assoc] at split
    obtain ⟨rfl, _⟩ := List.append_inj' split rfl
    exact List.subset_append_left _ _

theorem exists_parts {visits : List (Visit String)} {blocks : List (List Module)}
    (matched : List.Forall₂ (fun v block => Block w v.manifest block) visits blocks) :
    ∃ parts : List Part, parts.map Part.toVisit = visits ∧ parts.flatMap Part.preludes = blocks.flatten ∧
      ∀ p ∈ parts, Block w p.manifest p.preludes := by
  induction matched with
  | nil => exact ⟨[], rfl, rfl, by simp⟩
  | @cons v block visits blocks first _ ih =>
    obtain ⟨parts, rfl, flat, all⟩ := ih
    refine ⟨⟨v, block⟩ :: parts, rfl, ?_, List.forall_mem_cons.mpr ⟨first, all⟩⟩
    rw [List.flatMap_cons, flat, List.flatten_cons]

/-- A package that is loaded is assembled from a walk over its dependencies. -/
theorem assembled_of_loadPackage
    (run : loadPackage w store (some root) entry {} = .ok bundle s) :
    ∃ dependencies own, Assembled w store root entry bundle s dependencies own := by
  rw [loadPackage_run] at run
  split at run
  · cases run
  split at run
  · cases run
  next s₁ walked =>
  have preludes := loadPreludes_outcome w root root.preludePaths s₁
  split at run
  · cases run
  next s₂ appended =>
  rw [appended] at preludes
  obtain ⟨done₂, own, members, modules₂⟩ := preludes
  have finished := loadMember_outcome w root (entryOf root entry) s₂
  split at run
  · cases run
  next last s₃ ended =>
  rw [ended] at finished
  obtain ⟨isMember, modules₃, done₃⟩ := finished
  cases run
  obtain ⟨visits, walk, loads⟩ :=
    walk_of_visitAll _ [] root root.dependencies {} s₁ [] walked (loads_nil w)
  obtain ⟨blocks, modules₁, matched⟩ := loads.blocks
  obtain ⟨parts, rfl, flat, all⟩ := exists_parts matched
  refine ⟨parts, own, ?_, ⟨last, isMember, ?_⟩, ?_, ?_, ?_, ?_⟩
  · rw [done₃, done₂, loads.done, List.map_map]
    rfl
  · rw [modules₃, modules₂, modules₁, flat]
  · intro p member
    rcases List.mem_append.mp member with dependency | itself
    · exact all p dependency
    · rw [List.mem_singleton.mp itself]
      exact members
  · have unique := walk.nodup List.nodup_nil
    rwa [List.map_map] at unique
  · intro p member
    obtain ⟨parent, source, inside, declared, found⟩ :=
      walk.found_inside p.toVisit (List.mem_map_of_mem member)
    rcases inside with rfl | ⟨u, finished, rfl⟩
    · exact ⟨.ofRoot parent own, by simp, source, declared, found⟩
    · obtain ⟨owner, among, rfl⟩ := List.mem_map.mp finished
      exact ⟨owner, List.mem_append_left _ among, source, declared, found⟩
  · intro earlier owner later split name source declared
    have ordered : Ordered ((parts ++ [Part.ofRoot root own]).map Part.toVisit) := by
      rw [List.map_append]
      exact (walk.ordered ordered_nil).concat walk.mem_of_declared
    have split' : (parts ++ [Part.ofRoot root own]).map Part.toVisit =
        earlier.map Part.toVisit ++ owner.toVisit :: later.map Part.toVisit := by
      rw [split, List.map_append, List.map_cons]
    have before : name ∈ (earlier.map Part.toVisit).map Visit.name :=
      ordered _ _ _ split' (List.mem_map_of_mem declared)
    rw [List.map_map] at before
    obtain ⟨p, member, named⟩ := List.mem_map.mp before
    exact ⟨p, member, subset_of_split split member, named⟩

namespace Assembled

variable {dependencies : List Part} {own : List Module}

/-- Every declaration is served if and only if all declarations of one name lead to one directory. -/
theorem served_iff (assembled : Assembled w store root entry bundle s dependencies own) :
    Served w store (dependencies ++ [.ofRoot root own]) ↔
      OneDirectory store (dependencies ++ [.ofRoot root own]) := by
  constructor
  · intro served p member p' member' name source source' declared declared'
    have loaded : ∀ owner ∈ dependencies ++ [.ofRoot root own], ∀ source,
        owner.Declares name source → ∃ q ∈ dependencies, q.name = name ∧
          (store.dirOf owner.manifest name source).map Path.clean = .ok (Path.clean q.found) := by
      intro owner among source declared
      obtain ⟨earlier, later, split⟩ := List.append_of_mem among
      obtain ⟨q, before, named, dir, same, placed, _⟩ :=
        served earlier owner later split name source declared
      refine ⟨q, subset_of_split split before, named, ?_⟩
      rw [placed, ← same]
      rfl
    obtain ⟨q, among, named, leads⟩ := loaded p member source declared
    obtain ⟨q', among', named', leads'⟩ := loaded p' member' source' declared'
    -- No name is finished twice.
    obtain rfl : q = q' := List.inj_on_of_nodup_map assembled.nodup among among' (named.trans named'.symm)
    rw [leads, leads']
  · intro one earlier owner later split name source declared
    obtain ⟨p, before, among, rfl⟩ := assembled.ordered earlier owner later split name source declared
    obtain ⟨other, member, source', declared', found⟩ := assembled.found p among
    have here : owner ∈ dependencies ++ [.ofRoot root own] := by simp [split]
    have same := one owner here other member p.name source source' declared declared'
    rw [found.1] at same
    cases placed : store.dirOf owner.manifest p.name source with
    | error e =>
      rw [placed] at same
      cases same
    | ok dir =>
      rw [placed] at same
      have clean : Path.clean dir = Path.clean p.found := Except.ok.inj same
      refine ⟨p, before, rfl, dir, clean, placed, ?_⟩
      exact loadDependency_congr (dirOf_ne_empty found.1) (dirOf_ne_empty placed) clean.symm found.2

/-- What serves a declaration is loaded with all its preludes. -/
theorem preludes_of_served (assembled : Assembled w store root entry bundle s dependencies own)
    (served : Served w store (dependencies ++ [.ofRoot root own])) {earlier later : List Part}
    {owner : Part} (split : dependencies ++ [.ofRoot root own] = earlier ++ owner :: later)
    {name : String} {source : Source} (declared : owner.Declares name source) :
    ∃ dir m block, Placement w store owner.manifest name source dir m ∧ Block w m block ∧
      block <:+: earlier.flatMap Part.preludes := by
  obtain ⟨p, before, _, dir, _, placement⟩ := served earlier owner later split name source declared
  refine ⟨dir, p.manifest, p.preludes, placement, assembled.blocks p ?_, ?_⟩
  · exact List.mem_append_left _ (subset_of_split split before)
  · obtain ⟨front, behind, rfl⟩ := List.append_of_mem before
    exact ⟨front.flatMap Part.preludes, behind.flatMap Part.preludes, by simp⟩

theorem manifest_eq (assembled : Assembled w store root entry bundle s dependencies own) {p : Part}
    (member : p ∈ dependencies) {name dir : String} (placed : p.placed = ⟨name, dir⟩) {m : Manifest}
    (loaded : loadDependency w name dir = .ok m) : p.manifest = m := by
  obtain ⟨_, _, _, _, _, found⟩ := assembled.found p member
  obtain ⟨named, located⟩ := Placed.mk.inj placed
  rw [named, located, loaded] at found
  exact (Except.ok.inj found).symm

end Assembled

/-- A package that is loaded is assembled from its dependencies. If all declarations of one name lead
to one directory, the preludes of the package that a declaration leads to come before those of the
package that declares it. The package is then the one that is loaded under the name; if two
declarations of a name lead to two directories, this fails. -/
theorem loadPackage_serves (run : loadPackage w store (some root) entry {} = .ok bundle s) :
    ∃ dependencies own, Assembled w store root entry bundle s dependencies own ∧
      (Served w store (dependencies ++ [.ofRoot root own]) ↔
        OneDirectory store (dependencies ++ [.ofRoot root own])) ∧
      (OneDirectory store (dependencies ++ [.ofRoot root own]) →
        ∀ earlier owner later, dependencies ++ [.ofRoot root own] = earlier ++ owner :: later →
          ∀ name source, owner.Declares name source →
            ∃ dir m block, Placement w store owner.manifest name source dir m ∧ Block w m block ∧
              block <:+: earlier.flatMap Part.preludes) := by
  obtain ⟨dependencies, own, assembled⟩ := assembled_of_loadPackage run
  refine ⟨dependencies, own, assembled, assembled.served_iff, ?_⟩
  intro one earlier owner later split name source declared
  exact assembled.preludes_of_served (assembled.served_iff.mpr one) split declared

/-! ## Two directories of one name -/

/-- The package `app` and its dependency `a` both depend on a package `b`; that of `a` is in a given
place. The package in the directory `b` has a prelude, the one in the directory `c` has none. -/
def shadowing (place : String) : FileTree := .directory [
  ("a", packageDirectory ("name: a\ndependencies:\n  b: " ++ place ++ "\n")),
  ("app", .directory [("main.json", .file "[]".toUTF8), (manifestName, .file
    "name: app\ndependencies:\n  a: ../a\n  b: ../b\n".toUTF8)]),
  ("b", .directory [("b.json", .file "[]".toUTF8), (manifestName, .file
    "name: b\npreludes:\n  - b.json\n".toUTF8)]),
  ("c", packageDirectory "name: c\n")]

/-- The manifest of `app`. -/
def shadowingApp : Manifest where
  path := "/app/package.yml"
  name := "app"
  version := ""
  entry := ""
  preludes := []
  dependencies := [("a", { path := "../a" }), ("b", { path := "../b" })]

/-- The run that loads `app`. -/
def loadShadowing (place : String) : EStateM.Result LoadError LoadState Bundle :=
  loadPackage ⟨shadowing place, "/", .asWritten⟩ ⟨"", none⟩ (some shadowingApp) "/app/main.json" {}

theorem loadShadowing_ok {place : String} {paths : List (Option String)} {done : List Placed}
    (computed : (match loadShadowing place with
      | .ok bundle s => some (bundle.modules.map (Option.map Module.path), s.done)
      | .error _ _ => none) = some (paths, done)) :
    ∃ bundle s, loadShadowing place = .ok bundle s ∧
      bundle.modules.map (Option.map Module.path) = paths ∧ s.done = done := by
  cases run : loadShadowing place with
  | error e s =>
    rw [run] at computed
    cases computed
  | ok bundle s =>
    rw [run] at computed
    obtain ⟨rfl, rfl⟩ := Prod.mk.inj (Option.some.inj computed)
    exact ⟨bundle, s, rfl, rfl, rfl⟩

theorem shadowing_serves_one : ∃ bundle s dependencies own,
    loadShadowing "../b" = .ok bundle s ∧
    bundle.modules.map (Option.map Module.path) = [some "/b/b.json", some "/app/main.json"] ∧
    Assembled ⟨shadowing "../b", "/", .asWritten⟩ ⟨"", none⟩ shadowingApp "/app/main.json" bundle s
      dependencies own ∧
    Served ⟨shadowing "../b", "/", .asWritten⟩ ⟨"", none⟩
      (dependencies ++ [.ofRoot shadowingApp own]) := by
  obtain ⟨bundle, s, run, paths, done⟩ : ∃ bundle s, loadShadowing "../b" = .ok bundle s ∧
      bundle.modules.map (Option.map Module.path) = [some "/b/b.json", some "/app/main.json"] ∧
      s.done = [⟨"b", "/b"⟩, ⟨"a", "/a"⟩] := loadShadowing_ok (by decide +kernel)
  obtain ⟨dependencies, own, assembled, serves, _⟩ := loadPackage_serves run
  refine ⟨bundle, s, dependencies, own, run, paths, assembled, serves.mpr ?_⟩
  have manifestA : loadDependency ⟨shadowing "../b", "/", .asWritten⟩ "a" "/a" =
      .ok ⟨"/a/package.yml", "a", "", "", [], [("b", { path := "../b" })]⟩ :=
    eq_ok_of_toOption (by decide +kernel)
  have manifestB : loadDependency ⟨shadowing "../b", "/", .asWritten⟩ "b" "/b" =
      .ok ⟨"/b/package.yml", "b", "", "", ["b.json"], []⟩ :=
    eq_ok_of_toOption (by decide +kernel)
  -- Every declaration leads to the directory of its name.
  have leads : ∀ p ∈ dependencies ++ [.ofRoot shadowingApp own], ∀ name source, p.Declares name source →
      (⟨"", none⟩ : Store).dirOf p.manifest name source = .ok ("/" ++ name) := by
    intro p member name source declared
    rcases List.mem_append.mp member with dependency | itself
    · have placed : p.placed ∈ [⟨"b", "/b"⟩, ⟨"a", "/a"⟩] := by
        rw [← done, assembled.done]
        exact List.mem_map_of_mem dependency
      rcases List.mem_cons.mp placed with isB | rest
      · rw [Part.Declares, assembled.manifest_eq dependency isB manifestB] at declared
        cases declared
      · have isA := List.mem_singleton.mp rest
        rw [Part.Declares, assembled.manifest_eq dependency isA manifestA] at declared
        obtain ⟨rfl, rfl⟩ := Prod.mk.inj (List.mem_singleton.mp declared)
        rw [assembled.manifest_eq dependency isA manifestA]
        exact congrArg Except.ok (by decide +kernel)
    · have app : p.manifest = shadowingApp := by rw [List.mem_singleton.mp itself, Part.ofRoot]
      rw [Part.Declares, app] at declared
      rw [app]
      rcases List.mem_cons.mp declared with isA | rest
      · obtain ⟨rfl, rfl⟩ := Prod.mk.inj isA
        exact congrArg Except.ok (by decide +kernel)
      · obtain ⟨rfl, rfl⟩ := Prod.mk.inj (List.mem_singleton.mp rest)
        exact congrArg Except.ok (by decide +kernel)
  intro p member p' member' name source source' declared declared'
  rw [leads p member name source declared, leads p' member' name source' declared']

/-- The `b` of `app` has a prelude, which is not among the modules. -/
theorem shadowing_drops_prelude :
    Manifest.load .asWritten (shadowing "../c") "/app/package.yml" = .ok shadowingApp ∧
    ("b", { path := "../b" }) ∈ shadowingApp.dependencies ∧
    (∃ m, Placement ⟨shadowing "../c", "/", .asWritten⟩ ⟨"", none⟩ shadowingApp "b"
        { path := "../b" } "/b" m ∧
      m.preludePaths = ["/b/b.json"]) ∧
    ∃ bundle s, loadShadowing "../c" = .ok bundle s ∧
      bundle.modules.map (Option.map Module.path) = [some "/app/main.json"] := by
  have manifestB : loadDependency ⟨shadowing "../c", "/", .asWritten⟩ "b" "/b" =
      .ok ⟨"/b/package.yml", "b", "", "", ["b.json"], []⟩ :=
    eq_ok_of_toOption (by decide +kernel)
  have place : (⟨"", none⟩ : Store).dirOf shadowingApp "b" { path := "../b" } = .ok "/b" :=
    congrArg Except.ok (by decide +kernel)
  obtain ⟨bundle, s, run, paths, _⟩ : ∃ bundle s, loadShadowing "../c" = .ok bundle s ∧
      bundle.modules.map (Option.map Module.path) = [some "/app/main.json"] ∧
      s.done = [⟨"b", "/c"⟩, ⟨"a", "/a"⟩] := loadShadowing_ok (by decide +kernel)
  exact ⟨eq_ok_of_toOption (by decide +kernel), by decide, ⟨_, ⟨place, manifestB⟩, by decide +kernel⟩,
    bundle, s, run, paths⟩

end Smpl.Package
