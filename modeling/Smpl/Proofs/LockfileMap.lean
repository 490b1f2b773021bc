import Mathlib.Data.List.Induction
import Mathlib.Data.List.Nodup
import Smpl.Proofs.NormalForm

/-!
# Lockfiles are maps

A lockfile stands for a map from names, in their standard spelling, to packages in normal form:

* putting a package sets the entry of its name (`Lockfile.find?_upsert`);
* keeping some names removes all other entries (`Lockfile.find?_retain`).

Packages arrive in any spelling, are put in place or appended, and the list is sorted by the names as
they arrived. What carries the map through this is that no two packages have one name and that all
are in normal form (`Lockfile.Tidy`); every edit restores it.

Main result: `Lockfile.edits_refine_map`.
-/

namespace Smpl.Package.Lockfile

/-! ## Putting a package -/

theorem find?_eq_some {l : Lockfile} {name : String} {p : LockedPackage}
    (found : l.find? name = some p) : p ∈ l.packages ∧ p.name = Package.standardName name := by
  have met := List.find?_some found
  rw [decide_eq_true_eq] at met
  exact ⟨List.mem_of_find?_eq_some found, met⟩

theorem find?_eq_none {l : Lockfile} {name : String} (absent : l.find? name = none)
    {p : LockedPackage} (member : p ∈ l.packages) : p.name ≠ Package.standardName name := by
  have unmet := List.find?_eq_none.mp absent p member
  simpa using unmet

theorem mem_replaceFirst {name : String} {p q : LockedPackage} {packages : List LockedPackage}
    (member : q ∈ replaceFirst name p packages) : q = p ∨ q ∈ packages := by
  induction packages with
  | nil => cases member
  | cons first rest ih =>
    rw [replaceFirst] at member
    split at member
    · exact (List.mem_cons.mp member).imp_right (List.mem_cons_of_mem _)
    · rcases List.mem_cons.mp member with rfl | later
      · exact .inr List.mem_cons_self
      · exact (ih later).imp_right (List.mem_cons_of_mem _)

/-- Where no name stands twice, the package that was put is the only one of its name. -/
theorem mem_replaceFirst_of_nodup {name : String} {p q : LockedPackage}
    {packages : List LockedPackage} (nodup : (packages.map LockedPackage.name).Nodup)
    (member : q ∈ replaceFirst name p packages) : q = p ∨ q.name ≠ name := by
  induction packages with
  | nil => cases member
  | cons first rest ih =>
    rw [List.map_cons, List.nodup_cons] at nodup
    rw [replaceFirst] at member
    split at member
    · next here =>
      refine (List.mem_cons.mp member).imp_right fun later same => nodup.1 ?_
      rw [here, ← same]
      exact List.mem_map_of_mem later
    · next other =>
      rcases List.mem_cons.mp member with rfl | later
      · exact .inr other
      · exact ih nodup.2 later

theorem find?_replaceFirst_self {name : String} {p : LockedPackage}
    {packages : List LockedPackage} {meets : LockedPackage → Bool} (put : meets p = true)
    (only : ∀ q ∈ packages, meets q = true ↔ q.name = name)
    (present : ∃ q ∈ packages, q.name = name) :
    (replaceFirst name p packages).find? meets = some p := by
  induction packages with
  | nil => simp at present
  | cons first rest ih =>
    rw [replaceFirst]
    split
    · exact List.find?_cons_of_pos put
    · next other =>
      have unmet : ¬meets first = true := fun met => other ((only first List.mem_cons_self).mp met)
      rw [List.find?_cons_of_neg unmet]
      refine ih (fun q later => only q (List.mem_cons_of_mem _ later)) ?_
      obtain ⟨q, member, same⟩ := present
      rcases List.mem_cons.mp member with rfl | later
      · exact absurd same other
      · exact ⟨q, later, same⟩

theorem find?_replaceFirst_other {name : String} {p : LockedPackage}
    {packages : List LockedPackage} {meets : LockedPackage → Bool} (put : ¬meets p = true)
    (others : ∀ q ∈ packages, q.name = name → ¬meets q = true) :
    (replaceFirst name p packages).find? meets = packages.find? meets := by
  induction packages with
  | nil => rfl
  | cons first rest ih =>
    have below := ih fun q later => others q (List.mem_cons_of_mem _ later)
    rw [replaceFirst]
    split
    · next here =>
      rw [List.find?_cons_of_neg put, List.find?_cons_of_neg (others first List.mem_cons_self here)]
    · rw [List.find?_cons, List.find?_cons, below]

/-- The spelling of a package that is put: either it is the standard one, or it does not matter,
because no other package has its name. -/
def Fits (l : Lockfile) (p : LockedPackage) : Prop :=
  Package.standardName p.name = p.name ∨ (l.packages.map LockedPackage.name).Nodup

section Upsert

variable {l : Lockfile} {p : LockedPackage}

theorem alike_replaceFirst (normal : l.Normal) (fits : l.Fits p) {q : LockedPackage}
    (member : q ∈ replaceFirst (Package.standardName p.name) p l.packages)
    (same : Package.standardName q.name = Package.standardName p.name) : q.name = p.name := by
  rcases mem_replaceFirst member with rfl | old
  · rfl
  · rw [normal.standardName old] at same
    rcases fits with standard | nodup
    · rw [same, standard]
    · rcases mem_replaceFirst_of_nodup nodup member with rfl | other
      · rfl
      · exact absurd same other

/-- In normal form, a lockfile looks at the names of its packages in either spelling. -/
theorem find?_of_normal (normal : l.Normal) (name : String) :
    (l.packages.find? fun q => Package.standardName q.name = Package.standardName name).map
      LockedPackage.normalize = l.find? name := by
  have same : (l.packages.find? fun q =>
      Package.standardName q.name = Package.standardName name) = l.find? name := by
    rw [find?, ← List.head?_filter, ← List.head?_filter]
    refine congrArg List.head? (List.filter_congr fun q member => ?_)
    rw [normal.standardName member]
  rw [same]
  cases found : l.find? name with
  | none => rfl
  | some q => rw [Option.map_some, normal q (find?_eq_some found).1]

theorem find?_replaced (normal : l.Normal) (fits : l.Fits p) {old : LockedPackage}
    (found : l.find? p.name = some old) (name : String) :
    ({ l with packages := replaceFirst (Package.standardName p.name) p l.packages }.normalize).find?
        name =
      if Package.standardName name = Package.standardName p.name then some p.normalize
      else l.find? name := by
  rw [find?_normalize]
  · split
    · next same =>
      have put : (replaceFirst (Package.standardName p.name) p l.packages).find? (fun q =>
          Package.standardName q.name = Package.standardName name) = some p := by
        refine find?_replaceFirst_self ?_ ?_ ⟨old, find?_eq_some found⟩
        · rw [decide_eq_true_eq, same]
        · intro q member
          rw [decide_eq_true_eq, same, normal.standardName member]
      rw [put, Option.map_some]
    · next other =>
      rw [find?_replaceFirst_other, find?_of_normal normal]
      · rw [decide_eq_true_eq]
        exact Ne.symm other
      · intro q member here
        rw [decide_eq_true_eq, normal.standardName member, here]
        exact Ne.symm other
  · intro q hq r hr meetsQ meetsR
    by_cases same : Package.standardName name = Package.standardName p.name
    · rw [alike_replaceFirst normal fits hq (meetsQ.trans same),
        alike_replaceFirst normal fits hr (meetsR.trans same)]
    · have old : ∀ x ∈ replaceFirst (Package.standardName p.name) p l.packages,
          Package.standardName x.name = Package.standardName name →
          x.name = Package.standardName name := by
        intro x member meets
        rcases mem_replaceFirst member with rfl | before
        · exact absurd meets.symm same
        · rw [← meets, normal.standardName before]
      rw [old q hq meetsQ, old r hr meetsR]

theorem find?_appended (normal : l.Normal) (absent : l.find? p.name = none) (name : String) :
    ({ l with packages := l.packages ++ [p] }.normalize).find? name =
      if Package.standardName name = Package.standardName p.name then some p.normalize
      else l.find? name := by
  rw [find?_normalize]
  · rw [List.find?_append, Option.map_or, find?_of_normal normal]
    split
    · next same =>
      have missing : l.find? name = none := by
        rw [find?, same]
        exact absent
      rw [missing, Option.none_or, List.find?_cons_of_pos (by rw [decide_eq_true_eq, same]),
        Option.map_some]
    · next other =>
      rw [List.find?_cons_of_neg (by rw [decide_eq_true_eq]; exact Ne.symm other), List.find?_nil,
        Option.map_none, Option.or_none]
  · -- No package that was there has the name of the one that is appended.
    have old : ∀ x ∈ l.packages ++ [p], Package.standardName x.name = Package.standardName name →
        x = p ∨ (x ∈ l.packages ∧ x.name = Package.standardName name) := by
      intro x member meets
      rcases List.mem_append.mp member with before | new
      · exact .inr ⟨before, by rw [← meets, normal.standardName before]⟩
      · exact .inl (List.mem_singleton.mp new)
    intro q hq r hr meetsQ meetsR
    rcases old q hq meetsQ with rfl | ⟨memberQ, nameQ⟩ <;>
      rcases old r hr meetsR with rfl | ⟨memberR, nameR⟩
    · rfl
    · exact absurd (nameR.trans meetsQ.symm) (find?_eq_none absent memberR)
    · exact absurd (nameQ.trans meetsR.symm) (find?_eq_none absent memberQ)
    · rw [nameQ, nameR]

theorem find?_upsert (normal : l.Normal) (fits : l.Fits p) (name : String) :
    (l.upsert p).2.find? name =
      if Package.standardName name = Package.standardName p.name then some p.normalize
      else l.find? name := by
  rw [upsert]
  split
  · next old found =>
    split
    · next agrees =>
      split
      · next same =>
        have here : l.find? name = some old := by
          rw [find?, same]
          exact found
        rw [here, ← normal old (find?_eq_some found).1, LockedPackage.normalize_eq_of_agrees agrees]
      · rfl
    · exact find?_replaced normal fits found name
  · next absent => exact find?_appended normal absent name

theorem packages_of_unchanged (unchanged : (l.upsert p).1 = false) :
    (l.upsert p).2.packages = l.packages := by
  cases found : l.find? p.name with
  | none =>
    simp only [upsert, found] at unchanged
    cases unchanged
  | some old =>
    by_cases agrees : old.agrees p = true
    · simp only [upsert, found, agrees, if_true]
    · simp only [upsert, found, agrees] at unchanged
      cases unchanged

theorem normal_upsert (normal : l.Normal) : (l.upsert p).2.Normal := by
  rw [upsert]
  split
  · split
    · exact normal
    · exact normal_normalize _
  · exact normal_normalize _

end Upsert

/-! ## Keeping packages -/

theorem find?_retain (l : Lockfile) (names : List String) (name : String) :
    (l.retain names).2.find? name =
      if Package.standardName name ∈ names.map Package.standardName then l.find? name else none := by
  rw [find?, retain, List.find?_filter]
  split
  · next kept =>
    rw [find?, ← List.head?_filter, ← List.head?_filter]
    refine congrArg List.head? (List.filter_congr fun p _ => ?_)
    by_cases same : p.name = Package.standardName name
    · rw [same, decide_eq_decide]
      exact ⟨fun both => by simp, fun _ => ⟨List.contains_iff_mem.mpr kept, by simp⟩⟩
    · simp [same]
  · next dropped =>
    refine List.find?_eq_none.mpr fun p _ met => dropped ?_
    rw [decide_eq_true_eq, List.contains_iff_mem, decide_eq_true_eq] at met
    rw [← met.2]
    exact met.1

theorem normal_retain {l : Lockfile} (normal : l.Normal) (names : List String) :
    (l.retain names).2.Normal :=
  fun p member => normal p (List.mem_of_mem_filter member)

theorem retain_removes_iff (l : Lockfile) (names : List String) :
    (l.retain names).1 = true ↔ ∃ p ∈ l.packages, p ∉ (l.retain names).2.packages := by
  rw [retain]
  simp only [decide_eq_true_eq, ne_eq, List.length_filter_eq_length_iff, not_forall, List.mem_filter,
    not_and]
  refine exists_congr fun p => ?_
  constructor
  · rintro ⟨member, unmet⟩
    exact ⟨member, fun _ => unmet⟩
  · rintro ⟨member, unmet⟩
    exact ⟨member, unmet member⟩

/-! ## Edits -/

/-- A change to a lockfile. -/
inductive Edit where
  | upsert (p : LockedPackage)
  | retain (names : List String)

/-- The lockfile after one change. -/
def edit (l : Lockfile) : Edit → Lockfile
  | .upsert p => (l.upsert p).2
  | .retain names => (l.retain names).2

/-- The lockfile after changes one after the other. -/
def editAll (l : Lockfile) (edits : List Edit) : Lockfile := edits.foldl edit l

/-- What changes leave under a standard name, the latest change first: the package that was put last,
in normal form, unless the name was left out since. -/
def recorded (name : String) : List Edit → Option LockedPackage
  | [] => none
  | .upsert p :: earlier =>
    if Package.standardName p.name = name then some p.normalize else recorded name earlier
  | .retain names :: earlier =>
    if name ∈ names.map Package.standardName then recorded name earlier else none

/-- All packages are in normal form, and no two have one name. -/
structure Tidy (l : Lockfile) : Prop where
  normal : l.Normal
  nodup : (l.packages.map LockedPackage.name).Nodup

theorem names_normalize_perm (l : Lockfile) :
    (l.normalize.packages.map LockedPackage.name).Perm
      (l.packages.map fun p => Package.standardName p.name) := by
  rw [normalize, List.map_map]
  exact (List.mergeSort_perm l.packages _).map _

theorem map_replaceFirst {p : LockedPackage} {packages : List LockedPackage}
    (standard : ∀ q ∈ packages, Package.standardName q.name = q.name) :
    (replaceFirst (Package.standardName p.name) p packages).map (fun q => Package.standardName q.name) =
      packages.map LockedPackage.name := by
  induction packages with
  | nil => rfl
  | cons first rest ih =>
    have below := ih fun q later => standard q (List.mem_cons_of_mem _ later)
    have here := standard first List.mem_cons_self
    rw [replaceFirst]
    split
    · next same =>
      have rest : rest.map (fun q => Package.standardName q.name) = rest.map LockedPackage.name :=
        List.map_congr_left fun q later => standard q (List.mem_cons_of_mem _ later)
      rw [List.map_cons, List.map_cons, rest, same]
    · rw [List.map_cons, List.map_cons, below, here]

theorem Tidy.upsert {l : Lockfile} (tidy : l.Tidy) (p : LockedPackage) : (l.upsert p).2.Tidy := by
  have standard : ∀ q ∈ l.packages, Package.standardName q.name = q.name :=
    fun q member => tidy.normal.standardName member
  refine ⟨normal_upsert tidy.normal, ?_⟩
  rw [Lockfile.upsert]
  split
  · split
    · exact tidy.nodup
    · refine (names_normalize_perm _).nodup_iff.mpr ?_
      rw [map_replaceFirst standard]
      exact tidy.nodup
  · next absent =>
    refine (names_normalize_perm _).nodup_iff.mpr ?_
    rw [List.map_append, List.map_congr_left standard, List.map_singleton]
    refine List.nodup_append'.mpr ⟨tidy.nodup, List.nodup_singleton _, ?_⟩
    intro name old new
    obtain ⟨q, member, rfl⟩ := List.mem_map.mp old
    exact find?_eq_none absent member (List.mem_singleton.mp new)

theorem Tidy.retain {l : Lockfile} (tidy : l.Tidy) (names : List String) :
    (l.retain names).2.Tidy :=
  ⟨normal_retain tidy.normal names, tidy.nodup.sublist (List.filter_sublist.map _)⟩

theorem tidy_new (root tool generated : String) : (new root tool generated).Tidy :=
  ⟨fun _ member => absurd member List.not_mem_nil, List.nodup_nil⟩

theorem Tidy.edit {l : Lockfile} (tidy : l.Tidy) (e : Edit) : (l.edit e).Tidy := by
  cases e with
  | upsert p => exact tidy.upsert p
  | retain names => exact tidy.retain names

theorem Tidy.editAll {l : Lockfile} (tidy : l.Tidy) (edits : List Edit) : (l.editAll edits).Tidy := by
  induction edits generalizing l with
  | nil => exact tidy
  | cons e rest ih => exact ih (tidy.edit e)

/-- One change to the lockfile is one change to the map. -/
theorem find?_edit {l : Lockfile} (tidy : l.Tidy) (earlier : List Edit)
    (records : ∀ name, l.find? name = recorded (Package.standardName name) earlier) (e : Edit)
    (name : String) :
    (l.edit e).find? name = recorded (Package.standardName name) (e :: earlier) := by
  cases e with
  | upsert p =>
    rw [edit, find?_upsert tidy.normal (.inr tidy.nodup), records, recorded]
    exact if_congr eq_comm rfl rfl
  | retain names => rw [edit, find?_retain, records, recorded]

theorem find?_editAll (root tool generated : String) (edits : List Edit) (name : String) :
    ((new root tool generated).editAll edits).find? name =
      recorded (Package.standardName name) edits.reverse := by
  induction edits using List.reverseRecOn generalizing name with
  | nil => rfl
  | append_singleton before e ih =>
    have step : (new root tool generated).editAll (before ++ [e]) =
        ((new root tool generated).editAll before).edit e := by
      rw [editAll, List.foldl_append]
      rfl
    rw [step, List.reverse_append]
    exact find?_edit ((tidy_new root tool generated).editAll before) before.reverse ih e name

/-- After any changes to a new lockfile no two packages have one name, and a name is found as the
package that was put last under its standard spelling, in normal form, unless the name was left out
since or never put. Putting a package is reported as no change only if the packages stay as they
were, and keeping some names is reported as a removal exactly if a package was removed. -/
theorem edits_refine_map (root tool generated : String) (edits : List Edit) :
    let l := (new root tool generated).editAll edits
    (l.packages.map LockedPackage.name).Nodup ∧
    (∀ name, l.find? name = recorded (Package.standardName name) edits.reverse) ∧
    (∀ p, (l.upsert p).1 = false → (l.upsert p).2.packages = l.packages) ∧
    (∀ names, (l.retain names).1 = true ↔
      ∃ p ∈ l.packages, p ∉ (l.retain names).2.packages) := by
  intro l
  refine ⟨((tidy_new root tool generated).editAll edits).nodup,
    find?_editAll root tool generated edits, fun p unchanged => ?_, l.retain_removes_iff⟩
  exact packages_of_unchanged unchanged

end Smpl.Package.Lockfile
