import Smpl.Proofs.DependencyWalk
import Smpl.Proofs.ManifestFiles

/-!
# The order of loading

A package is loaded as a row of modules: a block for every dependency that is reached, then the preludes
of the package, then the entry program. A block holds the preludes of one dependency in order.

* A run that succeeds is a walk over the dependencies, with one block for each that is finished
  (`walk_of_visitAll`), so each block comes after the blocks of the dependencies of its package.
* A run that fails with a cycle reports names along which declarations lead to the last one, which is
  among them twice (`visitAll_explained`).
* The bound on the depth is never reached (`visitAll_explained`), and a greater one changes nothing
  (`visitAll_deeper`).
* A walk is what a run does, unless the program of a prelude cannot be loaded (`visitAll_of_walk`).
-/

namespace Smpl.Package

variable {w : Workspace} {store : Store} {depth : Nat} {trail : List String} {parent m : Manifest}
  {declared : List (String × Source)} {s s' : LoadState} {past out : List (Visit String)}

/-! ## Program files -/

/-- The module of a program file of a package. -/
def Member (w : Workspace) (owner : Manifest) (path : String) (member : Module) : Prop :=
  ∃ contents program, w.files.read (Path.absolute w.cwd path) = .ok contents ∧
    decodeProgram contents = .ok program ∧
    member = ⟨owner.name ++ "/" ++ moduleName (Path.absolute w.cwd path), Path.absolute w.cwd path,
      some program⟩

/-- The modules of the preludes of a package, in order. -/
def Block (w : Workspace) (owner : Manifest) (block : List Module) : Prop :=
  List.Forall₂ (Member w owner) owner.preludePaths block

/-- Why a program file cannot be loaded. -/
inductive Unloadable (w : Workspace) (path : String) : LoadError → Prop
  | unreadable {cause : FileError} : w.files.read (Path.absolute w.cwd path) = .error cause →
      Unloadable w path (.unreadable (Path.absolute w.cwd path) cause)
  | undecodable {contents : ByteArray} {cause : DecodeError} :
      w.files.read (Path.absolute w.cwd path) = .ok contents →
      decodeProgram contents = .error cause →
      Unloadable w path (.undecodable (Path.absolute w.cwd path) cause)

theorem Loading.get_run (s : LoadState) : (get : Loading LoadState) s = .ok s s := rfl

theorem Loading.modify_run (f : LoadState → LoadState) (s : LoadState) :
    (modify f : Loading PUnit) s = .ok ⟨⟩ (f s) := rfl

theorem Loading.lift_run {α : Type} (outcome : Except LoadError α) (s : LoadState) :
    Loading.lift outcome s =
      match outcome with
      | .ok a => .ok a s
      | .error e => .error e s := by
  cases outcome <;> rfl

theorem loadMember_outcome (w : Workspace) (owner : Manifest) (path : String) (s : LoadState) :
    match loadMember w owner path s with
    | .ok member s' => Member w owner path member ∧ s'.modules = s.modules ∧ s'.done = s.done
    | .error e _ => Unloadable w path e := by
  simp only [loadMember, loadModule, bind, EStateM.bind, Loading.lift_run]
  cases read : w.files.read (Path.absolute w.cwd path) with
  | error cause => exact .unreadable read
  | ok contents =>
    simp only [Except.mapError]
    cases decoded : decodeProgram contents with
    | error cause => exact .undecodable read decoded
    | ok program => exact ⟨⟨contents, program, read, decoded, rfl⟩, rfl, rfl⟩

theorem loadPreludes_outcome (w : Workspace) (owner : Manifest) (paths : List String)
    (s : LoadState) :
    match loadPreludes w owner paths s with
    | .ok _ s' => s'.done = s.done ∧
        ∃ block, List.Forall₂ (Member w owner) paths block ∧ s'.modules = s.modules ++ block
    | .error e _ => ∃ path ∈ paths, Unloadable w path e := by
  induction paths generalizing s with
  | nil => exact ⟨rfl, [], .nil, (List.append_nil _).symm⟩
  | cons path rest ih =>
    have first := loadMember_outcome w owner path s
    simp only [loadPreludes, bind, EStateM.bind]
    cases run : loadMember w owner path s with
    | error e s' =>
      rw [run] at first
      exact ⟨path, List.mem_cons_self, first⟩
    | ok member s₁ =>
      rw [run] at first
      obtain ⟨isMember, modules, done⟩ := first
      have later := ih { s₁ with modules := s₁.modules ++ [member] }
      simp only [Loading.modify_run]
      cases run' : loadPreludes w owner rest { s₁ with modules := s₁.modules ++ [member] } with
      | error e s' =>
        rw [run'] at later
        obtain ⟨path', among, unloadable⟩ := later
        exact ⟨path', List.mem_cons_of_mem _ among, unloadable⟩
      | ok _ s' =>
        rw [run'] at later
        obtain ⟨done', block, members, modules'⟩ := later
        refine ⟨done'.trans done, member :: block, .cons isMember members, ?_⟩
        rw [modules', modules, List.append_assoc, List.singleton_append]

/-! ## What a run does -/

/-- What a declaration leads to: the directory of the dependency, and the manifest there. -/
def Placement (w : Workspace) (store : Store) : Finder String := fun parent name source dir m =>
  store.dirOf parent name source = .ok dir ∧ loadDependency w name dir = .ok m

/-- A state with one more line in its log. -/
def LoadState.noted (s : LoadState) (text : String) : LoadState :=
  { s with log := s.log.push ⟨.verbose, text⟩ }

theorem note_run (text : String) (s : LoadState) : Loading.note text s = .ok () (s.noted text) := rfl

theorem visit_run (w : Workspace) (store : Store) (depth : Nat) (trail : List String)
    (parent : Manifest) (name : String) (source : Source) (s : LoadState) :
    visit w store (depth + 1) trail parent name source s =
      if name ∈ s.done.map Placed.name then .ok () s
      else if name ∈ trail then .error (.cycle (trail ++ [name])) s
      else
        match store.dirOf parent name source with
        | .error e => .error e s
        | .ok dir =>
          match loadDependency w name dir with
          | .error e => .error e s
          | .ok m =>
            match visitAll (visit w store depth (trail ++ [name]) m) m.dependencies
              (s.noted ("loader: dependency " ++ name ++ " resolved to " ++ dir)) with
            | .error e s' => .error e s'
            | .ok _ s' =>
              match loadPreludes w m m.preludePaths s' with
              | .error e s'' => .error e s''
              | .ok _ s'' => .ok () { s'' with done := s''.done ++ [⟨name, dir⟩] } := by
  have finished : (s.done.any (·.name = name)) = true ↔ name ∈ s.done.map Placed.name := by
    simp [List.any_eq_true, List.mem_map]
  simp only [visit, bind, EStateM.bind, Loading.get_run, finished, List.contains_iff_mem]
  split
  · rfl
  · split
    · rfl
    · simp only [EStateM.bind, Loading.lift_run]
      cases store.dirOf parent name source with
      | error e => rfl
      | ok dir =>
        dsimp only
        cases loadDependency w name dir with
        | error e => rfl
        | ok m =>
          simp only [note_run]
          cases visitAll (visit w store depth (trail ++ [name]) m) m.dependencies
            (s.noted ("loader: dependency " ++ name ++ " resolved to " ++ dir)) with
          | error e s' => rfl
          | ok _ s' =>
            dsimp only
            cases loadPreludes w m m.preludePaths s' <;> rfl

/-- A visit that succeeds passes over a name that is finished, or enters it: it goes over the
dependencies of the manifest there, appends the block of its preludes, and finishes the name. -/
theorem visit_ok {name : String} {source : Source}
    (run : visit w store (depth + 1) trail parent name source s = .ok () s') :
    (name ∈ s.done.map Placed.name ∧ s' = s) ∨
    (name ∉ s.done.map Placed.name ∧ name ∉ trail ∧ ∃ dir m s₁ block,
      Placement w store parent name source dir m ∧
      visitAll (visit w store depth (trail ++ [name]) m) m.dependencies
        (s.noted ("loader: dependency " ++ name ++ " resolved to " ++ dir)) = .ok () s₁ ∧
      Block w m block ∧ s'.modules = s₁.modules ++ block ∧ s'.done = s₁.done ++ [⟨name, dir⟩]) := by
  rw [visit_run] at run
  split at run
  · next finished =>
    cases run
    exact .inl ⟨finished, rfl⟩
  · next new =>
    split at run
    · cases run
    · next off =>
      cases placed : store.dirOf parent name source with
      | error e =>
        rw [placed] at run
        cases run
      | ok dir =>
        simp only [placed] at run
        cases loaded : loadDependency w name dir with
        | error e =>
          rw [loaded] at run
          cases run
        | ok m =>
          simp only [loaded] at run
          split at run
          · cases run
          · next s₁ inside =>
            have preludes := loadPreludes_outcome w m m.preludePaths s₁
            split at run
            · cases run
            · next s₂ appended =>
              cases run
              rw [appended] at preludes
              obtain ⟨done, block, members, modules⟩ := preludes
              exact .inr ⟨new, off, dir, m, s₁, block, ⟨placed, loaded⟩, inside, members, modules,
                congrArg (· ++ [⟨name, dir⟩]) done⟩

/-- A visit fails for a name it is inside of, for a dependency that is not there, or by what happens
inside: in the dependencies of its manifest, or in a prelude. -/
theorem visit_error {name : String} {source : Source} {e : LoadError}
    (run : visit w store (depth + 1) trail parent name source s = .error e s') :
    (name ∈ trail ∧ e = .cycle (trail ++ [name])) ∨
    store.dirOf parent name source = .error e ∨
    (∃ dir, loadDependency w name dir = .error e) ∨
    (name ∉ trail ∧ ∃ dir m, Placement w store parent name source dir m ∧
      ((∃ s₁, visitAll (visit w store depth (trail ++ [name]) m) m.dependencies s₁ = .error e s') ∨
        ∃ path ∈ m.preludePaths, Unloadable w path e)) := by
  rw [visit_run] at run
  split at run
  · cases run
  · split at run
    · next on =>
      cases run
      exact .inl ⟨on, rfl⟩
    · next off =>
      cases placed : store.dirOf parent name source with
      | error e' =>
        rw [placed] at run
        cases run
        exact .inr (.inl rfl)
      | ok dir =>
        simp only [placed] at run
        cases loaded : loadDependency w name dir with
        | error e' =>
          rw [loaded] at run
          cases run
          exact .inr (.inr (.inl ⟨dir, loaded⟩))
        | ok m =>
          simp only [loaded] at run
          refine .inr (.inr (.inr ⟨off, dir, m, ⟨placed, loaded⟩, ?_⟩))
          split at run
          · next inside =>
            cases run
            exact .inl ⟨_, inside⟩
          · next s₁ _ =>
            have preludes := loadPreludes_outcome w m m.preludePaths s₁
            split at run
            · next failed =>
              cases run
              rw [failed] at preludes
              exact .inr preludes
            · cases run

theorem visitAll_cons (visit : String → Source → Loading Unit) (name : String) (source : Source)
    (rest : List (String × Source)) (s : LoadState) :
    visitAll visit ((name, source) :: rest) s =
      match visit name source s with
      | .error e s' => .error e s'
      | .ok _ s' => visitAll visit rest s' := by
  simp only [visitAll, bind, EStateM.bind]
  cases visit name source s <;> rfl

/-! ## Runs are walks -/

/-- Where a finished dependency is. -/
def Visit.placed (v : Visit String) : Placed := ⟨v.name, v.found⟩

/-- The finished dependencies are those of some visits, and the modules are their blocks. -/
structure Loads (w : Workspace) (visits : List (Visit String)) (s : LoadState) : Prop where
  done : s.done = visits.map Visit.placed
  blocks : ∃ blocks : List (List Module), s.modules = blocks.flatten ∧
    List.Forall₂ (fun v block => Block w v.manifest block) visits blocks

theorem loads_nil (w : Workspace) : Loads w [] {} := ⟨rfl, [], rfl, .nil⟩

theorem names_of_done {visits : List (Visit String)} (done : s.done = visits.map Visit.placed) :
    s.done.map Placed.name = visits.map Visit.name := by
  rw [done, List.map_map]
  rfl

theorem Loads.concat {name dir : String} {block : List Module} (loads : Loads w past s)
    (members : Block w m block) (modules : s'.modules = s.modules ++ block)
    (done : s'.done = s.done ++ [⟨name, dir⟩]) : Loads w (past ++ [⟨name, dir, m⟩]) s' := by
  obtain ⟨blocks, before, matched⟩ := loads.blocks
  refine ⟨?_, blocks ++ [block], ?_, ?_⟩
  · rw [done, loads.done, List.map_append]
    rfl
  · rw [modules, before, List.flatten_append, List.flatten_singleton]
  · exact List.rel_append matched (.cons members .nil)

theorem walk_of_visitAll (depth : Nat) :
    ∀ (trail : List String) (parent : Manifest) (declared : List (String × Source))
      (s s' : LoadState) (past : List (Visit String)),
      visitAll (visit w store depth trail parent) declared s = .ok () s' → Loads w past s →
      ∃ out, Walk (Placement w store) trail past parent declared out ∧ Loads w out s' := by
  induction depth with
  | zero =>
    intro trail parent declared s s' past run loads
    cases declared with
    | nil =>
      cases run
      exact ⟨past, .finish, loads⟩
    | cons entry rest => cases run
  | succ depth ih =>
    intro trail parent declared
    induction declared with
    | nil =>
      rintro s s' past ⟨⟩ loads
      exact ⟨past, .finish, loads⟩
    | cons entry rest ihRest =>
      obtain ⟨name, source⟩ := entry
      intro s s' past run loads
      rw [visitAll_cons] at run
      cases run₁ : visit w store (depth + 1) trail parent name source s with
      | error e s₁ =>
        rw [run₁] at run
        cases run
      | ok _ s₁ =>
        rw [run₁] at run
        have passed := visit_ok run₁
        rw [names_of_done loads.done] at passed
        rcases passed with ⟨finished, rfl⟩ |
          ⟨new, off, dir, m, s₂, block, placement, inside, members, modules, done⟩
        · obtain ⟨out, walk, loads'⟩ := ihRest s₁ s' past run loads
          exact ⟨out, .again finished walk, loads'⟩
        · -- The log line before the walk inside touches neither names nor modules.
          obtain ⟨inner, within, loads₂⟩ := ih _ m m.dependencies _ s₂ past inside
            ⟨loads.done, loads.blocks⟩
          obtain ⟨out, walk, loads'⟩ := ihRest s₁ s' _ run (loads₂.concat members modules done)
          exact ⟨out, .enter new off placement within walk, loads'⟩

/-! ## Runs that fail -/

/-- The depth is not the reason for an error, and a cycle is reported as a path of declarations whose
last name is on it before. -/
def Explained (w : Workspace) (store : Store) (root : Manifest) : LoadError → Prop
  | .tooDeep => False
  | .cycle reported => ∃ trail name source parent, reported = trail ++ [name] ∧ name ∈ trail ∧
      Leads (Placement w store) root trail parent ∧ (name, source) ∈ parent.dependencies
  | _ => True

theorem Unloadable.explained {path : String} {e : LoadError} (unloadable : Unloadable w path e)
    (root : Manifest) : Explained w store root e := by
  cases unloadable <;> exact True.intro

theorem dirOf_explained {name : String} {source : Source} {e : LoadError}
    (failed : store.dirOf parent name source = .error e) (w : Workspace) (root : Manifest) :
    Explained w store root e := by
  rw [Store.dirOf] at failed
  split at failed
  · cases failed
  · split at failed
    · cases failed
      exact True.intro
    · split at failed
      · cases failed
        exact True.intro
      · split at failed <;> cases failed
        exact True.intro

theorem loadDependency_explained {name dir : String} {e : LoadError}
    (failed : loadDependency w name dir = .error e) (store : Store) (root : Manifest) :
    Explained w store root e := by
  rw [loadDependency] at failed
  cases loaded : Manifest.loadFrom (w.draws (.dependencies name)) w.files w.cwd
      (Path.join [dir, manifestName]) with
  | ok m =>
    rw [loaded] at failed
    cases failed
  | error cause =>
    rw [loaded] at failed
    cases failed
    dsimp only
    split <;> exact True.intro

theorem loadDependency_ok {name dir : String} (loaded : loadDependency w name dir = .ok m) :
    Manifest.loadFrom (w.draws (.dependencies name)) w.files w.cwd
      (Path.join [dir, manifestName]) = .ok m := by
  rw [loadDependency] at loaded
  cases read : Manifest.loadFrom (w.draws (.dependencies name)) w.files w.cwd
      (Path.join [dir, manifestName]) with
  | error cause =>
    rw [read] at loaded
    cases loaded
  | ok m' =>
    rw [read] at loaded
    cases loaded
    rfl

theorem loadDependency_eq_ok {name dir : String} :
    loadDependency w name dir = .ok m ↔
      Manifest.loadFrom (w.draws (.dependencies name)) w.files w.cwd
        (Path.join [dir, manifestName]) = .ok m := by
  refine ⟨loadDependency_ok, fun loaded => ?_⟩
  rw [loadDependency, loaded]
  rfl

theorem visitAll_explained {root : Manifest} (depth : Nat) :
    ∀ (trail : List String) (parent : Manifest) (declared : List (String × Source)) (s : LoadState),
      Enough (declaredNames w.files root) depth trail →
      Leads (Placement w store) root trail parent → declared ⊆ parent.dependencies →
      parent.dependencies.names ⊆ declaredNames w.files root →
      ∀ e s', visitAll (visit w store depth trail parent) declared s = .error e s' →
        Explained w store root e := by
  -- The trail is a path of declarations without a name twice, so it is shorter than the depth allows.
  induction depth with
  | zero => exact fun _ _ _ _ enough => absurd rfl enough.ne_zero
  | succ depth ih =>
    intro trail parent declared
    induction declared with
    | nil =>
      rintro s _ _ _ _ e s' ⟨⟩
    | cons entry rest ihRest =>
      obtain ⟨name, source⟩ := entry
      intro s enough leads subset names e s' run
      obtain ⟨here, later⟩ := List.cons_subset.mp subset
      rw [visitAll_cons] at run
      cases run₁ : visit w store (depth + 1) trail parent name source s with
      | ok _ s₁ =>
        rw [run₁] at run
        exact ihRest s₁ enough leads later names e s' run
      | error e₁ s₁ =>
        rw [run₁] at run
        cases run
        rcases visit_error run₁ with ⟨on, rfl⟩ | failed | ⟨dir, failed⟩ |
          ⟨off, dir, m, placement, ⟨s₂, inside⟩ | ⟨path, _, unloadable⟩⟩
        · exact ⟨trail, name, source, parent, rfl, on, leads, here⟩
        · exact dirOf_explained failed w root
        · exact loadDependency_explained failed store root
        · have leads' := leads.on here placement
          have names' := names_subset_of_loadFrom (loadDependency_ok placement.2) root
          have enough' := enough.enter (names (List.mem_map_of_mem here)) off
          exact ih _ m m.dependencies s₂ enough' leads' (List.Subset.refl _) names' _ _ inside
        · exact unloadable.explained root

/-- A greater depth makes no difference to a run that does not reach the bound. -/
theorem visitAll_deeper (extra depth : Nat) :
    ∀ (trail : List String) (parent : Manifest) (declared : List (String × Source)) (s : LoadState),
      (∀ s', visitAll (visit w store depth trail parent) declared s ≠ .error .tooDeep s') →
      visitAll (visit w store (depth + extra) trail parent) declared s =
        visitAll (visit w store depth trail parent) declared s := by
  induction depth with
  | zero =>
    intro trail parent declared s shallow
    cases declared with
    | nil => rfl
    | cons entry rest => exact absurd rfl (shallow s)
  | succ depth ih =>
    intro trail parent declared
    induction declared with
    | nil => exact fun s _ => rfl
    | cons entry rest ihRest =>
      obtain ⟨name, source⟩ := entry
      intro s shallow
      have same : visit w store (depth + 1 + extra) trail parent name source s =
          visit w store (depth + 1) trail parent name source s := by
        rw [visitAll_cons, visit_run] at shallow
        rw [show depth + 1 + extra = depth + extra + 1 by omega, visit_run, visit_run]
        split
        · rfl
        · next new =>
          split
          · rfl
          · next off =>
            rw [if_neg new, if_neg off] at shallow
            cases placed : store.dirOf parent name source with
            | error e => rfl
            | ok dir =>
              rw [placed] at shallow
              dsimp only at shallow ⊢
              cases loaded : loadDependency w name dir with
              | error e => rfl
              | ok m =>
                rw [loaded] at shallow
                dsimp only at shallow ⊢
                -- The walk inside did not reach the bound either, or this one would have.
                rw [ih]
                intro s' deep
                rw [deep] at shallow
                exact shallow s' rfl
      rw [visitAll_cons] at shallow
      rw [visitAll_cons, visitAll_cons, same]
      cases run : visit w store (depth + 1) trail parent name source s with
      | error e s' => rfl
      | ok _ s' =>
        rw [run] at shallow
        exact ihRest s' shallow

theorem visitDependencies_explained {e : LoadError}
    (failed : visitDependencies w store m s = .error e s') : Explained w store m e := by
  refine visitAll_explained (nameBound w.files m) [] m m.dependencies s ?_ .here (List.Subset.refl _)
    (names_subset_declaredNames w.files m) e s' failed
  rw [nameBound_eq]
  exact .start _

/-! ## Walks are runs -/

/-- A walk over what can be loaded is what a run does, as far as the depth goes and unless a prelude
cannot be loaded. -/
theorem visitAll_of_walk (walk : Walk (Placement w store) trail past parent declared out) :
    ∀ (depth : Nat) (s : LoadState), s.done = past.map Visit.placed →
      match visitAll (visit w store depth trail parent) declared s with
      | .ok _ s' => s'.done = out.map Visit.placed
      | .error e _ =>
        e = .tooDeep ∨ ∃ v ∈ out, ∃ path ∈ v.manifest.preludePaths, Unloadable w path e := by
  induction walk with
  | finish => exact fun depth s done => done
  | @again trail past out parent name source rest finished _ ih =>
    intro depth s done
    cases depth with
    | zero => exact .inl rfl
    | succ depth =>
      have passed : visit w store (depth + 1) trail parent name source s = .ok () s := by
        rw [visit_run, names_of_done done, if_pos finished]
      rw [visitAll_cons, passed]
      exact ih (depth + 1) s done
  | @enter trail past inner out parent m name source rest dir new off placement _ later ihInner
      ihRest =>
    intro depth s done
    have kept : ∀ v ∈ inner ++ [⟨name, dir, m⟩], v ∈ out :=
      fun v member => later.isPrefix.subset member
    cases depth with
    | zero => exact .inl rfl
    | succ depth =>
      rw [visitAll_cons, visit_run, names_of_done done, if_neg new, if_neg off, placement.1]
      dsimp only
      rw [placement.2]
      dsimp only
      have inside := ihInner depth
        (s.noted ("loader: dependency " ++ name ++ " resolved to " ++ dir)) done
      cases run : visitAll (visit w store depth (trail ++ [name]) m) m.dependencies
          (s.noted ("loader: dependency " ++ name ++ " resolved to " ++ dir)) with
      | error e s' =>
        rw [run] at inside
        exact inside.imp_right fun ⟨v, member, unloadable⟩ =>
          ⟨v, kept v (List.mem_append_left _ member), unloadable⟩
      | ok _ s₁ =>
        rw [run] at inside
        have preludes := loadPreludes_outcome w m m.preludePaths s₁
        dsimp only
        cases run' : loadPreludes w m m.preludePaths s₁ with
        | error e s' =>
          rw [run'] at preludes
          exact .inr ⟨⟨name, dir, m⟩, kept _ (by simp), preludes⟩
        | ok _ s₂ =>
          rw [run'] at preludes
          refine ihRest (depth + 1) { s₂ with done := s₂.done ++ [⟨name, dir⟩] } ?_
          dsimp only
          rw [preludes.1, inside, List.map_append]
          rfl

/-! ## Loading a package -/

/-- The path of the entry program that is meant. -/
def entryOf (m : Manifest) (entry : String) : String := if entry = "" then m.entryPath else entry

theorem loadPackage_run (w : Workspace) (store : Store) (m : Manifest) (entry : String)
    (s : LoadState) :
    loadPackage w store (some m) entry s =
      if entryOf m entry = "" then .error .noEntry s
      else
        match visitDependencies w store m s with
        | .error e s' => .error e s'
        | .ok _ s₁ =>
          match loadPreludes w m m.preludePaths s₁ with
          | .error e s' => .error e s'
          | .ok _ s₂ =>
            match loadMember w m (entryOf m entry) s₂ with
            | .error e s' => .error e s'
            | .ok last s₃ => .ok
              { modules := (s₃.modules ++ [last]).map some,
                entry := some (.position ((s₃.modules ++ [last]).length - 1)) } s₃ := by
  have path : (if entry = "" then ((some m).map Manifest.entryPath).getD "" else entry) =
      entryOf m entry := rfl
  simp only [loadPackage, path, bind]
  split
  · rfl
  · simp only [EStateM.bind]
    cases visitDependencies w store m s with
    | error e s' => rfl
    | ok _ s₁ =>
      dsimp only
      cases loadPreludes w m m.preludePaths s₁ with
      | error e s' => rfl
      | ok _ s₂ =>
        dsimp only
        cases loadMember w m (entryOf m entry) s₂ <;> rfl

/-- Loading a package goes over its dependencies without ever reaching the bound on the depth. If it
succeeds, the modules are one block for every name that is reached, with the preludes of the manifest
that was found for the name and after the blocks of all names declared there, then the preludes of the
package, and last the entry. If it fails with a cycle, the names reported are a path of declarations
whose last name is on it before. -/
theorem loadPackage_in_order (w : Workspace) (store : Store) (m : Manifest) (entry : String) :
    (∀ s, visitDependencies w store m {} ≠ .error .tooDeep s) ∧
    (∀ extra, visitAll (visit w store (nameBound w.files m + extra) [] m) m.dependencies {} =
      visitDependencies w store m {}) ∧
    match loadPackage w store (some m) entry {} with
    | .ok bundle _ =>
      ∃ (visits : List (Visit String)) (blocks : List (List Module)) (own : List Module)
        (last : Module),
        bundle.modules = (blocks.flatten ++ own ++ [last]).map some ∧
        bundle.entry = some (.position (blocks.flatten ++ own).length) ∧
        List.Forall₂ (fun v block => Block w v.manifest block) visits blocks ∧
        Block w m own ∧ Member w m (entryOf m entry) last ∧
        (visits.map Visit.name).Nodup ∧
        (∀ name, name ∈ visits.map Visit.name ↔ Reaches m visits name) ∧
        (∀ v ∈ visits, ∃ parent source, Declared (Placement w store) m parent v.name source ∧
          Placement w store parent v.name source v.found v.manifest) ∧
        Ordered visits
    | .error e _ => Explained w store m e := by
  have shallow : ∀ s, visitDependencies w store m {} ≠ .error .tooDeep s :=
    fun s deep => visitDependencies_explained deep
  refine ⟨shallow, fun extra => visitAll_deeper extra _ [] m m.dependencies {} shallow, ?_⟩
  rw [loadPackage_run]
  by_cases missing : entryOf m entry = ""
  · rw [if_pos missing]
    exact True.intro
  · rw [if_neg missing]
    cases walked : visitDependencies w store m {} with
    | error e s => exact visitDependencies_explained walked
    | ok _ s₁ =>
      have preludes := loadPreludes_outcome w m m.preludePaths s₁
      dsimp only
      cases appended : loadPreludes w m m.preludePaths s₁ with
      | error e s =>
        rw [appended] at preludes
        obtain ⟨path, _, unloadable⟩ := preludes
        exact unloadable.explained m
      | ok _ s₂ =>
        rw [appended] at preludes
        obtain ⟨_, own, members, modules₂⟩ := preludes
        have finished := loadMember_outcome w m (entryOf m entry) s₂
        dsimp only
        cases ended : loadMember w m (entryOf m entry) s₂ with
        | error e s =>
          rw [ended] at finished
          exact finished.explained m
        | ok last s₃ =>
          rw [ended] at finished
          obtain ⟨isMember, modules₃, _⟩ := finished
          obtain ⟨visits, walk, loads⟩ :=
            walk_of_visitAll _ [] m m.dependencies {} s₁ [] walked (loads_nil w)
          obtain ⟨blocks, modules₁, matched⟩ := loads.blocks
          have modules : s₃.modules = blocks.flatten ++ own := by rw [modules₃, modules₂, modules₁]
          refine ⟨visits, blocks, own, last, ?_, ?_, matched, members, isMember,
            walk.nodup List.nodup_nil, walk.names_iff, walk.declared, walk.ordered ordered_nil⟩
          · rw [modules]
          · rw [modules, List.length_append, List.length_singleton, Nat.add_sub_cancel]

end Smpl.Package
