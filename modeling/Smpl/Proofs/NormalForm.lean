import Mathlib.Data.List.Basic
import Smpl.Package.Lockfile

/-!
# The normal form of packages

A locked package in normal form has its name and its dependencies in the standard spelling, no blanks
around its other fields, and its dependencies sorted. Normalizing again changes nothing
(`LockedPackage.normalize_normalize`), and packages that agree have one normal form
(`LockedPackage.normalize_eq_of_agrees`).

Sorting packages by name keeps the order of those that have one name, so the first of them stays the
first (`Lockfile.find?_sortPackages`).
-/

namespace Smpl

/-! ## Trimmed text -/

namespace Text

/-- No white space at either end. -/
def Trimmed (cs : List Char) : Prop :=
  (∀ c, cs.head? = some c → isSpace c = false) ∧ (∀ c, cs.getLast? = some c → isSpace c = false)

theorem dropWhile_isSpace_eq {cs : List Char} (first : ∀ c, cs.head? = some c → isSpace c = false) :
    cs.dropWhile isSpace = cs := by
  cases cs with
  | nil => rfl
  | cons c cs => exact List.dropWhile_cons_of_neg (by simp [first c rfl])

theorem head?_dropWhile_isSpace {cs : List Char} {c : Char}
    (first : (cs.dropWhile isSpace).head? = some c) : isSpace c = false := by
  have last := List.head?_dropWhile_not isSpace cs
  rw [first] at last
  exact last

theorem trimChars_eq_self {cs : List Char} (trimmed : Trimmed cs) : trimChars cs = cs := by
  have left : trimLeft cs = cs := dropWhile_isSpace_eq trimmed.1
  have right : cs.reverse.dropWhile isSpace = cs.reverse :=
    dropWhile_isSpace_eq fun c last => trimmed.2 c (by rwa [List.head?_reverse] at last)
  rw [trimChars, left, trimRight, right, List.reverse_reverse]

theorem trimmed_trimChars (cs : List Char) : Trimmed (trimChars cs) := by
  constructor
  · intro c first
    -- What is left after trimming on the right is a beginning of what was there before.
    obtain ⟨blanks, split⟩ : trimRight (trimLeft cs) <+: trimLeft cs := by
      have suffix := (trimLeft cs).reverse.dropWhile_suffix isSpace
      rwa [← List.reverse_prefix, List.reverse_reverse] at suffix
    have started : (trimLeft cs).head? = some c := by
      rw [← split, List.head?_append, show (trimRight (trimLeft cs)).head? = some c from first]
      rfl
    exact head?_dropWhile_isSpace started
  · intro c last
    rw [trimChars, trimRight, List.getLast?_reverse] at last
    exact head?_dropWhile_isSpace last

theorem Trimmed.map {f : Char → Char} (same : ∀ c, isSpace (f c) = isSpace c) {cs : List Char}
    (trimmed : Trimmed cs) : Trimmed (cs.map f) := by
  constructor
  · intro c first
    rw [List.head?_map, Option.map_eq_some_iff] at first
    obtain ⟨d, first, rfl⟩ := first
    rw [same, trimmed.1 d first]
  · intro c last
    rw [List.getLast?_map, Option.map_eq_some_iff] at last
    obtain ⟨d, last, rfl⟩ := last
    rw [same, trimmed.2 d last]

theorem trimmed_of_forall {cs : List Char} (ink : ∀ c ∈ cs, isSpace c = false) : Trimmed cs :=
  ⟨fun c first => ink c (List.mem_of_head? first), fun c last => ink c (List.mem_of_getLast? last)⟩

/-- A text between a beginning and an end that are no blanks. -/
theorem trimmed_append {start finish : List Char} (first : start ≠ []) (last : finish ≠ [])
    (inkedFirst : ∀ c, start.head? = some c → isSpace c = false) (trimmed : Trimmed finish) :
    Trimmed (start ++ finish) := by
  constructor
  · intro c head
    rw [List.head?_append_of_ne_nil _ first] at head
    exact inkedFirst c head
  · intro c end_
    rw [List.getLast?_append_of_ne_nil _ last] at end_
    exact trimmed.2 c end_

theorem trim_eq_self {s : String} (trimmed : Trimmed s.toList) : trim s = s := by
  rw [trim, trimChars_eq_self trimmed, String.ofList_toList]

theorem trimmed_trim (s : String) : Trimmed (trim s).toList := by
  rw [trim, String.toList_ofList]
  exact trimmed_trimChars s.toList

theorem trim_trim (s : String) : trim (trim s) = trim s := trim_eq_self (trimmed_trim s)

end Text

namespace Package

/-! ## Standard spelling -/

theorem isSpace_hyphen (c : Char) : Text.isSpace (if c = '-' then '_' else c) = Text.isSpace c := by
  split
  · next hyphen => rw [hyphen]; decide
  · rfl

theorem trimmed_standardName (name : String) : Text.Trimmed (standardName name).toList := by
  rw [standardName, String.toList_ofList]
  exact (Text.trimmed_trimChars name.toList).map isSpace_hyphen

theorem standardName_standardName (name : String) :
    standardName (standardName name) = standardName name := by
  have again : ∀ c : Char, (if (if c = '-' then '_' else c) = '-' then '_'
      else if c = '-' then '_' else c) = if c = '-' then '_' else c := by
    intro c
    by_cases hyphen : c = '-' <;> simp [hyphen]
  conv_lhs => rw [standardName, Text.trimChars_eq_self (trimmed_standardName name)]
  rw [standardName, String.toList_ofList, List.map_map]
  exact congrArg String.ofList (List.map_congr_left fun c _ => again c)

theorem standardName_ne_empty {name : String} (given : Text.trim name ≠ "") :
    standardName name ≠ "" := by
  intro empty
  have nothing := congrArg String.toList empty
  rw [standardName, String.toList_ofList] at nothing
  exact given (congrArg String.ofList (List.map_eq_nil_iff.mp nothing))

/-! ## Sorted strings -/

theorem pairwise_sortStrings (strings : List String) :
    (sortStrings strings).Pairwise (· ≤ ·) := by
  have sorted : (sortStrings strings).Pairwise fun a b => decide (a ≤ b) = true :=
    List.pairwise_mergeSort
      (fun a b c ab bc => by simpa using String.le_trans (by simpa using ab) (by simpa using bc))
      (fun a b => by simpa using String.le_total a b) strings
  exact sorted.imp fun le => by simpa using le

theorem sortStrings_perm (strings : List String) : (sortStrings strings).Perm strings :=
  List.mergeSort_perm strings _

theorem sortStrings_eq_of_perm {a b : List String} (perm : a.Perm b) :
    sortStrings a = sortStrings b :=
  List.Perm.eq_of_pairwise (fun _ _ _ _ => String.le_antisymm) (pairwise_sortStrings a)
    (pairwise_sortStrings b)
    ((sortStrings_perm a).trans (perm.trans (sortStrings_perm b).symm))

theorem perm_of_sortStrings_eq {a b : List String} (same : sortStrings a = sortStrings b) :
    a.Perm b :=
  (sortStrings_perm a).symm.trans (same ▸ sortStrings_perm b)

theorem sortStrings_eq_self {strings : List String} (sorted : strings.Pairwise (· ≤ ·)) :
    sortStrings strings = strings :=
  List.mergeSort_of_pairwise (sorted.imp fun le => by simpa using le)

/-! ## Packages -/

namespace LockedPackage

@[simp]
theorem normalize_name (p : LockedPackage) : p.normalize.name = standardName p.name := rfl

@[simp]
theorem normalize_version (p : LockedPackage) : p.normalize.version = Text.trim p.version := rfl

theorem normalize_normalize (p : LockedPackage) : p.normalize.normalize = p.normalize := by
  have spelled : (sortStrings (p.dependencies.map standardName)).map standardName =
      sortStrings (p.dependencies.map standardName) := by
    refine (List.map_congr_left fun name member => ?_).trans (List.map_id _)
    rw [(sortStrings_perm _).mem_iff, List.mem_map] at member
    obtain ⟨written, _, rfl⟩ := member
    exact standardName_standardName written
  simp only [normalize, standardName_standardName, Text.trim_trim, spelled,
    sortStrings_eq_self (pairwise_sortStrings _)]

theorem agrees_iff {p q : LockedPackage} :
    p.agrees q = true ↔ p.name = q.name ∧ p.version = q.version ∧ p.source = q.source ∧
      p.checksum = q.checksum ∧ p.dependencies.Perm q.dependencies := by
  have sorted : sortStrings p.dependencies = sortStrings q.dependencies ↔
      p.dependencies.Perm q.dependencies := ⟨perm_of_sortStrings_eq, sortStrings_eq_of_perm⟩
  simp only [agrees, Bool.and_eq_true, decide_eq_true_eq, sorted, and_assoc]

theorem agrees_symm {p q : LockedPackage} (agree : p.agrees q = true) : q.agrees p = true := by
  obtain ⟨name, version, source, checksum, dependencies⟩ := agrees_iff.mp agree
  exact agrees_iff.mpr ⟨name.symm, version.symm, source.symm, checksum.symm, dependencies.symm⟩

theorem agrees_trans {p q r : LockedPackage} (first : p.agrees q = true)
    (second : q.agrees r = true) : p.agrees r = true := by
  obtain ⟨name, version, source, checksum, dependencies⟩ := agrees_iff.mp first
  obtain ⟨name', version', source', checksum', dependencies'⟩ := agrees_iff.mp second
  exact agrees_iff.mpr ⟨name.trans name', version.trans version', source.trans source',
    checksum.trans checksum', dependencies.trans dependencies'⟩

theorem normalize_eq_of_agrees {p q : LockedPackage} (agree : p.agrees q = true) :
    p.normalize = q.normalize := by
  obtain ⟨name, version, source, checksum, dependencies⟩ := agrees_iff.mp agree
  simp only [normalize, name, version, source, checksum,
    sortStrings_eq_of_perm (dependencies.map standardName)]

end LockedPackage

/-! ## Lockfiles -/

namespace Lockfile

/-- All packages are in normal form. -/
def Normal (l : Lockfile) : Prop := ∀ p ∈ l.packages, p.normalize = p

theorem normal_normalize (l : Lockfile) : l.normalize.Normal := by
  intro p member
  obtain ⟨q, _, rfl⟩ := List.mem_map.mp member
  exact q.normalize_normalize

theorem Normal.standardName {l : Lockfile} (normal : l.Normal) {p : LockedPackage}
    (member : p ∈ l.packages) : standardName p.name = p.name :=
  congrArg LockedPackage.name (normal p member)

/-- Of the packages that meet a condition, the first stays the first, provided they all have the
same name: the sort is stable. -/
theorem find?_sortPackages {packages : List LockedPackage} {meets : LockedPackage → Bool}
    (alike : ∀ p ∈ packages, ∀ q ∈ packages, meets p → meets q → p.name = q.name) :
    (sortPackages packages).find? meets = packages.find? meets := by
  have level : (packages.filter meets).Pairwise fun a b => decide (a.name ≤ b.name) = true := by
    refine List.pairwise_of_forall_mem_list fun a ha b hb => ?_
    rw [List.mem_filter] at ha hb
    simp [alike a ha.1 b hb.1 ha.2 hb.2]
  have kept : (packages.filter meets).Sublist (sortPackages packages) :=
    List.sublist_mergeSort
      (fun a b c ab bc => by simpa using String.le_trans (by simpa using ab) (by simpa using bc))
      (fun a b => by simpa using String.le_total a.name b.name) level List.filter_sublist
  have same : packages.filter meets = (sortPackages packages).filter meets := by
    refine List.Sublist.eq_of_length ?_
      (((List.mergeSort_perm packages _).filter meets).length_eq.symm)
    simpa using kept.filter meets
  rw [← List.head?_filter, ← List.head?_filter, same]

/-- Looking up a name in a lockfile that is normalized: the first package whose name has that
standard spelling, provided all such packages were spelled alike. -/
theorem find?_normalize {l : Lockfile} {name : String}
    (alike : ∀ p ∈ l.packages, ∀ q ∈ l.packages,
      Package.standardName p.name = Package.standardName name →
      Package.standardName q.name = Package.standardName name → p.name = q.name) :
    l.normalize.find? name =
      (l.packages.find? fun p => Package.standardName p.name = Package.standardName name).map
        LockedPackage.normalize := by
  have spelled : (fun p : LockedPackage => decide (p.name = Package.standardName name)) ∘
      LockedPackage.normalize =
      fun p => decide (Package.standardName p.name = Package.standardName name) := by
    funext p
    rw [Function.comp_apply, LockedPackage.normalize_name]
  rw [find?, normalize, List.find?_map, spelled, find?_sortPackages]
  intro p hp q hq meetsP meetsQ
  rw [decide_eq_true_eq] at meetsP meetsQ
  exact alike p hp q hq meetsP meetsQ

end Lockfile

end Package

end Smpl
