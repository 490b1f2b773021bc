import Mathlib.Data.List.Pairwise
import Smpl.Proofs.ManifestFiles

/-!
# The order of locked packages

Normalizing a lockfile sorts its packages by the names that they come with, and gives the names their
standard spelling after that. Most of the normal form does not depend on this order of steps: every
name and dependency is in the standard spelling, there are no blanks around the other fields, the
dependencies of each package are sorted, and no package is lost (`Lockfile.normalize_packages_perm`).

The order of the packages does. A hyphen stands before all digits and letters and an underscore after
the digits and the capital letters, so two names may change places when they are spelled anew
(`Lockfile.KeepsOrder`). Only where none do

* the packages are in the order of their names (`Lockfile.sorted_normalize_iff`);
* normalizing again changes nothing (`Lockfile.normalize_normalize_iff`);
* a lockfile that is written and read has its packages in the same order
  (`Lockfile.packages_ofFields_iff`).

Names in the standard spelling keep their order, so normalizing twice is always enough.

Main result: `Lockfile.orders_iff_keepsOrder`. A lockfile whose names change places: `crossing`.
-/

namespace Smpl.Package

/-! ## Names and packages in standard form -/

/-- A name without blanks around it and without hyphens. -/
def Spelled (name : String) : Prop := Text.trim name = name ∧ '-' ∉ name.toList

theorem spelled_standardName (name : String) : Spelled (standardName name) := by
  refine ⟨Text.trim_eq_self (trimmed_standardName name), fun hyphen => ?_⟩
  rw [standardName, String.toList_ofList] at hyphen
  obtain ⟨c, _, same⟩ := List.mem_map.mp hyphen
  by_cases hyphenated : c = '-'
  · rw [if_pos hyphenated] at same
    exact absurd same (by decide)
  · rw [if_neg hyphenated] at same
    exact hyphenated same

/-- A package all of whose names are spelled, without blanks around its other fields and with its
dependencies in order. -/
structure LockedPackage.Standard (p : LockedPackage) : Prop where
  name : Spelled p.name
  version : Text.trim p.version = p.version
  source : Text.trim p.source = p.source
  checksum : Text.trim p.checksum = p.checksum
  dependencies : ∀ name ∈ p.dependencies, Spelled name
  sorted : p.dependencies.Pairwise (· ≤ ·)

theorem LockedPackage.standard_normalize (p : LockedPackage) : p.normalize.Standard where
  name := spelled_standardName p.name
  version := Text.trim_trim _
  source := Text.trim_trim _
  checksum := Text.trim_trim _
  dependencies := by
    intro name member
    rw [normalize, (sortStrings_perm _).mem_iff] at member
    obtain ⟨written, _, rfl⟩ := List.mem_map.mp member
    exact spelled_standardName written
  sorted := pairwise_sortStrings _

namespace Lockfile

variable {l : Lockfile}

/-! ## Sorted packages -/

/-- The packages are in the order of their names. -/
def Sorted (l : Lockfile) : Prop := l.packages.Pairwise fun p q => p.name ≤ q.name

/-- No two names of packages change places when they are given their standard spelling. -/
def KeepsOrder (l : Lockfile) : Prop :=
  ∀ p ∈ l.packages, ∀ q ∈ l.packages, p.name < q.name →
    Package.standardName p.name ≤ Package.standardName q.name

theorem pairwise_sortPackages (packages : List LockedPackage) :
    (sortPackages packages).Pairwise fun p q => p.name ≤ q.name := by
  have sorted : (sortPackages packages).Pairwise fun p q => decide (p.name ≤ q.name) = true :=
    List.pairwise_mergeSort
      (fun a b c ab bc => by simpa using String.le_trans (by simpa using ab) (by simpa using bc))
      (fun a b => by simpa using String.le_total a.name b.name) packages
  exact sorted.imp fun le => by simpa using le

theorem sortPackages_perm (packages : List LockedPackage) : (sortPackages packages).Perm packages :=
  List.mergeSort_perm packages _

theorem sortPackages_eq_self_iff {packages : List LockedPackage} :
    sortPackages packages = packages ↔ packages.Pairwise fun p q => p.name ≤ q.name := by
  constructor
  · intro same
    rw [← same]
    exact pairwise_sortPackages packages
  · intro sorted
    exact List.mergeSort_of_pairwise (sorted.imp fun le => by simpa using le)

theorem normalize_packages_perm (l : Lockfile) :
    l.normalize.packages.Perm (l.packages.map LockedPackage.normalize) :=
  (sortPackages_perm l.packages).map _

theorem sorted_normalize_iff : l.normalize.Sorted ↔ l.KeepsOrder := by
  have inOrder := pairwise_sortPackages l.packages
  have members (p : LockedPackage) : p ∈ sortPackages l.packages ↔ p ∈ l.packages :=
    (sortPackages_perm l.packages).mem_iff
  rw [Sorted, normalize, List.pairwise_map]
  simp only [LockedPackage.normalize_name]
  constructor
  · intro sorted
    -- Which of two packages comes first is not known, so what is kept is said of both orders.
    let Kept (p q : LockedPackage) : Prop :=
      (p.name < q.name → Package.standardName p.name ≤ Package.standardName q.name) ∧
        (q.name < p.name → Package.standardName q.name ≤ Package.standardName p.name)
    have symmetric : Std.Symm Kept := ⟨fun _ _ both => ⟨both.2, both.1⟩⟩
    have reflexive (p : LockedPackage) : Kept p p :=
      ⟨fun _ => String.le_refl _, fun _ => String.le_refl _⟩
    have kept : (sortPackages l.packages).Pairwise Kept :=
      (inOrder.and sorted).imp fun both =>
        ⟨fun _ => both.2, fun later => absurd both.1 (String.not_le.mpr later)⟩
    intro p memberP q memberQ earlier
    exact (kept.forall_of_forall (fun p _ => reflexive p) ((members p).mpr memberP)
      ((members q).mpr memberQ)).1 earlier
  · intro keeps
    refine inOrder.imp_of_mem fun {p q} memberP memberQ le => ?_
    by_cases earlier : p.name < q.name
    · exact keeps p ((members p).mp memberP) q ((members q).mp memberQ) earlier
    · have same : p.name = q.name := String.le_antisymm le (String.not_lt.mp earlier)
      exact same ▸ String.le_refl (Package.standardName p.name)

/-! ## Normalizing again -/

theorem packages_normalize_normalize (l : Lockfile) :
    l.normalize.normalize.packages = sortPackages l.normalize.packages := by
  refine (List.map_congr_left fun p member => ?_).trans (List.map_id _)
  rw [(sortPackages_perm _).mem_iff] at member
  exact normal_normalize l p member

theorem packages_normalize_normalize_iff :
    l.normalize.normalize.packages = l.normalize.packages ↔ l.KeepsOrder := by
  rw [packages_normalize_normalize, sortPackages_eq_self_iff]
  exact sorted_normalize_iff

theorem normalize_normalize_iff : l.normalize.normalize = l.normalize ↔ l.KeepsOrder := by
  have root : l.normalize.normalize.root = l.normalize.root := standardName_standardName l.root
  have tool : l.normalize.normalize.tool = l.normalize.tool := Text.trim_trim l.tool
  rw [← packages_normalize_normalize_iff]
  constructor
  · exact congrArg packages
  · intro packages
    cases same : l.normalize
    rw [same] at root tool packages
    simp only [Lockfile.normalize] at root tool packages ⊢
    rw [root, tool, packages]

theorem Normal.keepsOrder (normal : l.Normal) : l.KeepsOrder := by
  intro p memberP q memberQ earlier
  rw [normal.standardName memberP, normal.standardName memberQ]
  exact (String.le_total _ _).resolve_right (String.not_le.mpr earlier)

/-! ## Writing and reading -/

/-- What the text of a lockfile holds: all but the path of its file. -/
def written (l : Lockfile) : Lockfile := { l with path := "" }

theorem packages_prepare (l : Lockfile) (now path : String) :
    (l.prepare now path).packages = l.normalize.packages := rfl

theorem packages_ofFields (l : Lockfile) : l.ofFields.packages = l.normalize.packages := rfl

theorem packages_ofFields_iff (l : Lockfile) (now path : String) :
    (l.prepare now path).written.ofFields.packages = (l.prepare now path).packages ↔
      l.KeepsOrder := by
  rw [packages_prepare, ← packages_normalize_normalize_iff, packages_ofFields]
  rfl

/-- A normalized lockfile has all its fields in standard form, and one package for each that it had.
The packages are in the order of their names, stay as they are when the lockfile is normalized again,
and come back in the same order from a lockfile that is written, each if and only if no two names
change places when they are spelled anew. They never do once the lockfile was normalized before. -/
theorem orders_iff_keepsOrder (l : Lockfile) (now path : String) :
    (Spelled l.normalize.root ∧ Text.trim l.normalize.tool = l.normalize.tool ∧
      ∀ p ∈ l.normalize.packages, p.Standard) ∧
    l.normalize.packages.Perm (l.packages.map LockedPackage.normalize) ∧
    (l.normalize.Sorted ↔ l.KeepsOrder) ∧
    (l.normalize.normalize = l.normalize ↔ l.KeepsOrder) ∧
    ((l.prepare now path).written.ofFields.root = (l.prepare now path).root ∧
      (l.prepare now path).written.ofFields.tool = (l.prepare now path).tool ∧
      ((l.prepare now path).written.ofFields.packages = (l.prepare now path).packages ↔
        l.KeepsOrder)) ∧
    l.normalize.KeepsOrder := by
  refine ⟨⟨spelled_standardName _, Text.trim_trim _, fun p member => ?_⟩, normalize_packages_perm l,
    sorted_normalize_iff, normalize_normalize_iff,
    ⟨standardName_standardName _, Text.trim_trim _, packages_ofFields_iff l now path⟩,
    (normal_normalize l).keepsOrder⟩
  obtain ⟨written, _, rfl⟩ := List.mem_map.mp member
  exact written.standard_normalize

/-- A lockfile with two packages whose names change places when they are spelled anew. -/
def crossing : Lockfile where
  root := "app"
  generated := "g"
  tool := "t"
  packages := [
    { name := "a-b", version := "1.0.0", source := "path+../a-b", checksum := "sha256:aa" },
    { name := "a0", version := "1.0.0", source := "path+../a0", checksum := "sha256:bb" }]

theorem readText_crossing : Yaml.RecordType.readText fileType crossing.text {} = .ok crossing :=
  eq_ok_of_toOption (by decide +kernel)

theorem crossing_not_keepsOrder : ¬ crossing.KeepsOrder := by
  intro keeps
  have earlier : ("a-b" : String) < "a0" := by decide
  have kept := keeps _ List.mem_cons_self _ (List.mem_cons_of_mem _ List.mem_cons_self) earlier
  exact absurd kept (by decide)

/-- Read from its text, it is normalized but not in the order of its names, and normalizing it again
changes it. Written as it is, it is read with its packages in another order. -/
theorem crossing_out_of_order :
    (∃ l, ofText "/package.lock" crossing.text = .ok l ∧ ¬ l.Sorted ∧ l.normalize ≠ l) ∧
    (crossing.prepare "" "/package.lock").written.ofFields.packages ≠
      (crossing.prepare "" "/package.lock").packages := by
  refine ⟨⟨{ crossing.ofFields with path := "/package.lock" }, ?_, ?_, ?_⟩, ?_⟩
  · rw [ofText, readText_crossing]
  · exact fun sorted => crossing_not_keepsOrder (sorted_normalize_iff.mp sorted)
  · intro same
    have again := congrArg packages same
    exact crossing_not_keepsOrder (packages_normalize_normalize_iff.mp again)
  · exact fun same => crossing_not_keepsOrder ((packages_ofFields_iff crossing _ _).mp same)

end Lockfile

end Smpl.Package
