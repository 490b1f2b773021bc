import Mathlib.Data.List.Nodup
import Mathlib.Data.List.Perm.Subperm
import Smpl.Package.Loading

/-!
# Walks over dependencies

Installing and loading go over the dependencies of a package in the same way. Each keeps the names
that it is inside of (the trail) and the names that it has finished, and

* passes over a name that is finished;
* enters any other name, unless it is inside of it already: it finds the manifest that the name stands
  for, goes over the dependencies declared there, and finishes the name.

A name is finished once, for the manifest that the first declaration met leads to; later declarations
of the name count for nothing. `Walk` is what both do when nothing fails, for any way to find a
dependency (`Finder`).

In a walk from a manifest no name is finished twice (`Walk.nodup`), a manifest is finished after all
its dependencies (`Walk.ordered`), and the names finished are those that are reached when every name
stands for the manifest it was finished with (`Walk.names_iff`).

The trail never repeats a name and holds only declared names, so its length is bounded by their number
(`Enough`).
-/

namespace Smpl.Package

variable {κ κ' : Type}

/-! ## Walks -/

/-- A finished dependency: its name, what was found for it, and its manifest. -/
structure Visit (κ : Type) where
  name : String
  found : κ
  manifest : Manifest

/-- What a declaration in a manifest leads to: something found, and the manifest there. -/
abbrev Finder (κ : Type) := Manifest → String → Source → κ → Manifest → Prop

/-- A declaration leads to one thing only. -/
def Finder.Single (finds : Finder κ) : Prop :=
  ∀ parent name source x x' m m', finds parent name source x m → finds parent name source x' m' →
    x = x' ∧ m = m'

/-- `Walk finds trail past parent declared out`: going over what `parent` declares, inside of `trail`
and after `past`, ends with `out` finished. -/
inductive Walk (finds : Finder κ) :
    List String → List (Visit κ) → Manifest → List (String × Source) → List (Visit κ) → Prop
  | finish {trail : List String} {past : List (Visit κ)} {parent : Manifest} :
      Walk finds trail past parent [] past
  | again {trail : List String} {past out : List (Visit κ)} {parent : Manifest} {name : String}
      {source : Source} {rest : List (String × Source)} :
      name ∈ past.map Visit.name → Walk finds trail past parent rest out →
      Walk finds trail past parent ((name, source) :: rest) out
  | enter {trail : List String} {past inner out : List (Visit κ)} {parent m : Manifest}
      {name : String} {source : Source} {rest : List (String × Source)} {x : κ} :
      name ∉ past.map Visit.name → name ∉ trail → finds parent name source x m →
      Walk finds (trail ++ [name]) past m m.dependencies inner →
      Walk finds trail (inner ++ [⟨name, x, m⟩]) parent rest out →
      Walk finds trail past parent ((name, source) :: rest) out

/-- Every manifest comes after all its dependencies. -/
def Ordered (visits : List (Visit κ)) : Prop :=
  ∀ before v after, visits = before ++ v :: after →
    v.manifest.dependencies.names ⊆ before.map Visit.name

theorem ordered_nil : Ordered ([] : List (Visit κ)) := fun before v after split => by simp at split

theorem Ordered.concat {visits : List (Visit κ)} {v : Visit κ} (ordered : Ordered visits)
    (behind : v.manifest.dependencies.names ⊆ visits.map Visit.name) : Ordered (visits ++ [v]) := by
  intro before u after split
  rcases List.eq_nil_or_concat after with rfl | ⟨init, last, rfl⟩
  · obtain ⟨rfl, same⟩ := List.append_inj' split rfl
    cases same
    exact behind
  · rw [List.concat_eq_append, ← List.cons_append, ← List.append_assoc] at split
    obtain ⟨rfl, _⟩ := List.append_inj' split rfl
    exact ordered before u init rfl

namespace Walk

variable {finds : Finder κ} {trail : List String} {past out : List (Visit κ)} {parent : Manifest}
  {declared : List (String × Source)}

theorem isPrefix (walk : Walk finds trail past parent declared out) : past <+: out := by
  induction walk with
  | finish => exact List.prefix_refl _
  | again _ _ ih => exact ih
  | enter _ _ _ _ _ ihInner ihRest => exact (ihInner.trans (List.prefix_append _ _)).trans ihRest

theorem mem_of_declared (walk : Walk finds trail past parent declared out) :
    ∀ name ∈ Table.names declared, name ∈ out.map Visit.name := by
  induction walk with
  | finish =>
    intro name member
    cases member
  | again finished later ih =>
    intro name member
    rcases List.mem_cons.mp member with rfl | member
    · exact (later.isPrefix.map Visit.name).subset finished
    · exact ih name member
  | @enter trail past inner out parent m entered source rest x _ _ _ _ later _ ihRest =>
    intro name member
    rcases List.mem_cons.mp member with rfl | member
    · exact (later.isPrefix.map Visit.name).subset (by simp)
    · exact ihRest name member

/-- What is finished on the way is not on the trail. -/
theorem fresh (walk : Walk finds trail past parent declared out) :
    ∀ v ∈ out, v ∈ past ∨ v.name ∉ trail := by
  induction walk with
  | finish => exact fun v member => .inl member
  | again _ _ ih => exact ih
  | enter _ off _ _ _ ihInner ihRest =>
    intro v member
    rcases ihRest v member with earlier | fresh
    · rcases List.mem_append.mp earlier with inside | entered
      · exact (ihInner v inside).imp_right fun fresh on => fresh (List.mem_append_left _ on)
      · rw [List.mem_singleton.mp entered]
        exact .inr off
    · exact .inr fresh

theorem nodup (walk : Walk finds trail past parent declared out)
    (unique : (past.map Visit.name).Nodup) : (out.map Visit.name).Nodup := by
  induction walk with
  | finish => exact unique
  | again _ _ ih => exact ih unique
  | @enter trail past inner out parent m entered source rest x new _ _ within _ ihInner ihRest =>
    refine ihRest ?_
    rw [List.map_append, List.map_singleton]
    refine List.nodup_append'.mpr ⟨ihInner unique, List.nodup_singleton _, ?_⟩
    intro name inside here
    rw [List.mem_singleton] at here
    subst here
    -- The walk inside of a name does not finish that name.
    obtain ⟨v, member, same⟩ := List.mem_map.mp inside
    rcases within.fresh v member with earlier | fresh
    · exact new (List.mem_map.mpr ⟨v, earlier, same⟩)
    · exact fresh (by simp [same])

theorem ordered (walk : Walk finds trail past parent declared out) (start : Ordered past) :
    Ordered out := by
  induction walk with
  | finish => exact start
  | again _ _ ih => exact ih start
  | enter _ _ _ within _ ihInner ihRest =>
    exact ihRest ((ihInner start).concat within.mem_of_declared)

/-- Where a declaration leads to one thing only, there is one walk only. -/
theorem unique (single : finds.Single) (walk : Walk finds trail past parent declared out)
    {out' : List (Visit κ)} (walk' : Walk finds trail past parent declared out') : out = out' := by
  induction walk generalizing out' with
  | finish =>
    cases walk'
    rfl
  | again finished _ ih =>
    cases walk' with
    | again _ later' => exact ih later'
    | enter new' => exact absurd finished new'
  | enter new _ found _ _ ihInner ihRest =>
    cases walk' with
    | again finished' => exact absurd finished' new
    | enter _ _ found' inner' later' =>
      obtain ⟨rfl, rfl⟩ := single _ _ _ _ _ _ _ found found'
      obtain rfl := ihInner inner'
      exact ihRest later'

/-- What holds of the declarations that a walk starts from, and passes from a declaration to those in
the manifest found for it, holds of a declaration of every name that the walk finishes. -/
theorem finds_of_mem {holds : Manifest → String → Source → Prop}
    (walk : Walk finds trail past parent declared out)
    (start : ∀ name source, (name, source) ∈ declared → holds parent name source)
    (step : ∀ parent name source x m, holds parent name source → finds parent name source x m →
      ⟨name, x, m⟩ ∈ out → ∀ name' source', (name', source') ∈ m.dependencies →
        holds m name' source') :
    ∀ v ∈ out, v ∈ past ∨
      ∃ parent source, holds parent v.name source ∧ finds parent v.name source v.found v.manifest := by
  induction walk with
  | finish => exact fun v member => .inl member
  | again _ _ ih =>
    exact ih (fun name source member => start name source (List.mem_cons_of_mem _ member)) step
  | @enter trail past inner out parent m entered source rest x _ _ found _ later ihInner ihRest =>
    have here : holds parent entered source := start entered source List.mem_cons_self
    have kept : ∀ v ∈ inner ++ [⟨entered, x, m⟩], v ∈ out :=
      fun v member => later.isPrefix.subset member
    intro v member
    rcases ihRest (fun name source member => start name source (List.mem_cons_of_mem _ member)) step
      v member with earlier | declared
    · rcases List.mem_append.mp earlier with inside | last
      · refine ihInner ?_ ?_ v inside
        · exact step parent entered source x m here found (kept _ (by simp))
        · intro parent' name' source' x' m' holds' finds' member'
          exact step parent' name' source' x' m' holds' finds' (kept _ (List.mem_append_left _ member'))
      · rw [List.mem_singleton.mp last]
        exact .inr ⟨parent, source, here, found⟩
    · exact .inr declared

/-- A walk for one way to find dependencies is one for another, if that finds the like of what was
found. -/
theorem map {finds' : Finder κ'} (f : κ → κ')
    (walk : Walk finds trail past parent declared out)
    (same : ∀ parent name source x m, ⟨name, x, m⟩ ∈ out → finds parent name source x m →
      finds' parent name source (f x) m) :
    Walk finds' trail (past.map fun v => ⟨v.name, f v.found, v.manifest⟩) parent declared
      (out.map fun v => ⟨v.name, f v.found, v.manifest⟩) := by
  have names : ∀ visits : List (Visit κ), (visits.map fun v : Visit κ =>
      (⟨v.name, f v.found, v.manifest⟩ : Visit κ')).map Visit.name = visits.map Visit.name := by
    intro visits
    rw [List.map_map]
    rfl
  induction walk with
  | finish => exact .finish
  | again finished _ ih => exact .again (by rwa [names]) (ih same)
  | @enter trail past inner out parent m entered source rest x new off found _ later ihInner ihRest =>
    have kept : ∀ v ∈ inner ++ [⟨entered, x, m⟩], v ∈ out :=
      fun v member => later.isPrefix.subset member
    refine .enter (by rwa [names]) off (same _ _ _ _ _ (kept _ (by simp)) found)
      (ihInner fun parent' name' source' x' m' member' found' => ?_) ?_
    · exact same _ _ _ _ _ (kept _ (List.mem_append_left _ member')) found'
    · have rest := ihRest same
      rwa [List.map_append] at rest

theorem mono {finds' : Finder κ} (walk : Walk finds trail past parent declared out)
    (wider : ∀ parent name source x m, ⟨name, x, m⟩ ∈ out → finds parent name source x m →
      finds' parent name source x m) :
    Walk finds' trail past parent declared out := by
  simpa using walk.map id wider

end Walk

/-! ## What a walk reaches -/

/-- The names reached from a manifest when every name stands for the manifest that it was finished
with. -/
inductive Reaches (root : Manifest) (visits : List (Visit κ)) : String → Prop
  | own {name : String} : name ∈ root.dependencies.names → Reaches root visits name
  | further {v : Visit κ} {name : String} :
      v ∈ visits → Reaches root visits v.name → name ∈ v.manifest.dependencies.names →
      Reaches root visits name

theorem Walk.names_iff {finds : Finder κ} {root : Manifest} {out : List (Visit κ)}
    (walk : Walk finds [] [] root root.dependencies out) (name : String) :
    name ∈ out.map Visit.name ↔ Reaches root out name := by
  constructor
  · intro member
    obtain ⟨v, finished, rfl⟩ := List.mem_map.mp member
    let holds : Manifest → String → Source → Prop := fun _ name _ => Reaches root out name
    have start : ∀ name source, (name, source) ∈ root.dependencies → holds root name source :=
      fun name source declared => .own (List.mem_map_of_mem declared)
    rcases walk.finds_of_mem start (fun _ _ _ _ _ reached _ entered _ _ declared =>
      .further entered reached (List.mem_map_of_mem declared)) v finished with
      earlier | ⟨_, _, reached, _⟩
    · cases earlier
    · exact reached
  · intro reached
    induction reached with
    | own declared => exact walk.mem_of_declared _ declared
    | @further v name member _ declared _ =>
      obtain ⟨before, after, split⟩ := List.append_of_mem member
      have earlier := walk.ordered ordered_nil before v after split declared
      rw [split, List.map_append]
      exact List.mem_append_left _ earlier

/-- `Leads finds root trail m`: declarations lead from the manifest `root` along the names of `trail`
to the manifest `m`. -/
inductive Leads (finds : Finder κ) (root : Manifest) : List String → Manifest → Prop
  | here : Leads finds root [] root
  | on {trail : List String} {parent m : Manifest} {name : String} {source : Source} {x : κ} :
      Leads finds root trail parent → (name, source) ∈ parent.dependencies →
      finds parent name source x m → Leads finds root (trail ++ [name]) m

/-- A declaration in a manifest that declarations lead to. -/
def Declared (finds : Finder κ) (root parent : Manifest) (name : String) (source : Source) : Prop :=
  ∃ trail, Leads finds root trail parent ∧ (name, source) ∈ parent.dependencies

theorem Declared.step {finds : Finder κ} {root parent m : Manifest} {name name' : String}
    {source source' : Source} {x : κ} (declared : Declared finds root parent name source)
    (found : finds parent name source x m) (member : (name', source') ∈ m.dependencies) :
    Declared finds root m name' source' := by
  obtain ⟨trail, leads, here⟩ := declared
  exact ⟨trail ++ [name], leads.on here found, member⟩

/-- What a walk finds is found for a declaration. -/
theorem Walk.declared {finds : Finder κ} {root : Manifest} {out : List (Visit κ)}
    (walk : Walk finds [] [] root root.dependencies out) :
    ∀ v ∈ out, ∃ parent source, Declared finds root parent v.name source ∧
      finds parent v.name source v.found v.manifest := by
  intro v member
  have start : ∀ name source, (name, source) ∈ root.dependencies →
      Declared finds root root name source :=
    fun name source here => ⟨[], .here, here⟩
  rcases walk.finds_of_mem start (fun _ _ _ _ _ declared found _ _ _ => declared.step found) v member
    with earlier | declared
  · cases earlier
  · exact declared

/-! ## The bound on the depth -/

/-- The trail repeats no name and has only some `names` on it; `depth` more can follow, which is more
than there are. -/
structure Enough (names : List String) (depth : Nat) (trail : List String) : Prop where
  nodup : trail.Nodup
  subset : trail ⊆ names
  bound : names.length < depth + trail.length

namespace Enough

variable {names trail : List String} {depth : Nat}

theorem start (names : List String) : Enough names (names.length + 1) [] :=
  ⟨List.nodup_nil, List.nil_subset _, Nat.lt_succ_self _⟩

theorem ne_zero (enough : Enough names depth trail) : depth ≠ 0 := by
  have few := (List.subperm_of_subset enough.nodup enough.subset).length_le
  have bound := enough.bound
  omega

theorem enter {name : String} (enough : Enough names (depth + 1) trail) (declared : name ∈ names)
    (off : name ∉ trail) : Enough names depth (trail ++ [name]) := by
  refine ⟨?_, ?_, ?_⟩
  · refine List.nodup_append'.mpr ⟨enough.nodup, List.nodup_singleton _, ?_⟩
    intro other on here
    rw [List.mem_singleton.mp here] at on
    exact off on
  · intro other member
    rcases List.mem_append.mp member with on | here
    · exact enough.subset on
    · rw [List.mem_singleton.mp here]
      exact declared
  · have bound := enough.bound
    rw [List.length_append, List.length_singleton]
    omega

end Enough

end Smpl.Package
