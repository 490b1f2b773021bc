import Smpl.Proofs.Locating

/-!
# Resolving dependencies

Resolving goes over the dependencies of a manifest and locates each of them. Whether it succeeds or
not, the files only grow and the lockfile is not touched (`resolveDependencies_keeps`), and it never
runs into the bound on the depth (`resolveDependencies_ne_tooDeep`).

A run that succeeds is a walk over what can be located in the end (`walk_of_resolveDependencies`), and a
walk is what another run does (`resolveDependencies_of_walk`). So resolving once more gives the same
packages in the same order.
-/

namespace Smpl.Package

variable {draws : Draws} {cwd home : String} {depth : Nat} {trail : List String} {parent m : Manifest}
  {declared : List (String × Source)} {s s' : InstallState} {past out : List (Visit Fetched)}

/-! ## What a run does -/

theorem Installing.get_run (s : InstallState) : (get : Installing InstallState) s = .ok s s := rfl

theorem resolveDependency_run (draws : Draws) (cwd home : String) (depth : Nat) (trail : List String)
    (parent : Manifest) (name : String) (source : Source) (s : InstallState) :
    resolveDependency draws cwd home (depth + 1) trail parent name source s =
      if name ∈ s.settled.map (·.package.name) then .ok () s
      else if name ∈ trail then .error (.cycle name) s
      else
        match locate draws cwd home parent name source s.files with
        | .error e files => .error e { s with files := files }
        | .ok (f, m) files =>
          match resolveAll (resolveDependency draws cwd home depth (trail ++ [name]) m) m.dependencies
            { s with files := files } with
          | .error e s' => .error e s'
          | .ok _ s' => .ok () { s' with settled := s'.settled ++ [f] } := by
  have finished : (s.settled.any (·.package.name = name)) = true ↔
      name ∈ s.settled.map (·.package.name) := by
    simp [List.any_eq_true, List.mem_map]
  simp only [resolveDependency, bind, EStateM.bind, Installing.get_run, finished,
    List.contains_iff_mem]
  split
  · rfl
  · split
    · rfl
    · simp only [EStateM.bind, Installing.onFiles]
      cases locate draws cwd home parent name source s.files with
      | error e files => rfl
      | ok found files =>
        dsimp only
        cases resolveAll (resolveDependency draws cwd home depth (trail ++ [name]) found.2)
          found.2.dependencies { s with files := files } <;> rfl

/-- Resolving a name succeeds by passing over it, if it is resolved, or by locating it, resolving the
dependencies of its manifest, and taking it down as resolved. -/
theorem resolveDependency_ok {name : String} {source : Source}
    (run : resolveDependency draws cwd home (depth + 1) trail parent name source s = .ok () s') :
    (name ∈ s.settled.map (·.package.name) ∧ s' = s) ∨
    (name ∉ s.settled.map (·.package.name) ∧ name ∉ trail ∧ ∃ f m files s₁,
      locate draws cwd home parent name source s.files = .ok (f, m) files ∧
      resolveAll (resolveDependency draws cwd home depth (trail ++ [name]) m) m.dependencies
        { s with files := files } = .ok () s₁ ∧
      s' = { s₁ with settled := s₁.settled ++ [f] }) := by
  rw [resolveDependency_run] at run
  split at run
  · next finished =>
    cases run
    exact .inl ⟨finished, rfl⟩
  · next new =>
    split at run
    · cases run
    · next off =>
      split at run
      · cases run
      · next f m files located =>
        split at run
        · cases run
        · next s₁ inside =>
          cases run
          exact .inr ⟨new, off, f, m, files, s₁, located, inside, rfl⟩

/-- Resolving a name fails for a name it is inside of, in locating it, or in the dependencies of its
manifest. -/
theorem resolveDependency_error {name : String} {source : Source} {e : InstallError}
    (run : resolveDependency draws cwd home (depth + 1) trail parent name source s = .error e s') :
    (name ∈ trail ∧ e = .cycle name) ∨
    (∃ files, locate draws cwd home parent name source s.files = .error e files) ∨
    (name ∉ trail ∧ ∃ f m files, locate draws cwd home parent name source s.files = .ok (f, m) files ∧
      resolveAll (resolveDependency draws cwd home depth (trail ++ [name]) m) m.dependencies
        { s with files := files } = .error e s') := by
  rw [resolveDependency_run] at run
  split at run
  · cases run
  · split at run
    · next on =>
      cases run
      exact .inl ⟨on, rfl⟩
    · next off =>
      split at run
      · next failed =>
        cases run
        exact .inr (.inl ⟨_, failed⟩)
      · next f m files located =>
        split at run
        · next inside =>
          cases run
          exact .inr (.inr ⟨off, f, m, files, located, inside⟩)
        · cases run

theorem resolveAll_cons (resolve : String → Source → Installing Unit) (name : String) (source : Source)
    (rest : List (String × Source)) (s : InstallState) :
    resolveAll resolve ((name, source) :: rest) s =
      match resolve name source s with
      | .error e s' => .error e s'
      | .ok _ s' => resolveAll resolve rest s' := by
  simp only [resolveAll, bind, EStateM.bind]
  cases resolve name source s <;> rfl

/-! ## Frame -/

/-- The files only grow, and the lockfile stays. -/
structure Kept (s s' : InstallState) : Prop where
  files : s.files.Grown s'.files
  lock : s'.lock = s.lock

theorem Kept.refl (s : InstallState) : Kept s s := ⟨.refl _, rfl⟩

theorem Kept.trans {a b c : InstallState} (first : Kept a b) (second : Kept b c) : Kept a c :=
  ⟨first.files.trans second.files, second.lock.trans first.lock⟩

/-- The state after a run, whether it succeeds or not. -/
def endState {α : Type} : EStateM.Result InstallError InstallState α → InstallState
  | .ok _ s => s
  | .error _ s => s

theorem resolveAll_keeps {resolve : String → Source → Installing Unit}
    (keeps : ∀ name source s, Kept s (endState (resolve name source s)))
    (declared : List (String × Source)) (s : InstallState) :
    Kept s (endState (resolveAll resolve declared s)) := by
  induction declared generalizing s with
  | nil => exact .refl s
  | cons entry rest ih =>
    obtain ⟨name, source⟩ := entry
    have first := keeps name source s
    rw [resolveAll_cons]
    cases run : resolve name source s with
    | error e s' => rwa [run] at first
    | ok _ s' =>
      rw [run] at first
      exact first.trans (ih s')

theorem resolveDependency_keeps (draws : Draws) (cwd home : String) (depth : Nat) :
    ∀ (trail : List String) (parent : Manifest) (name : String) (source : Source) (s : InstallState),
      Kept s (endState (resolveDependency draws cwd home depth trail parent name source s)) := by
  induction depth with
  | zero => exact fun trail parent name source s => .refl s
  | succ depth ih =>
    intro trail parent name source s
    rw [resolveDependency_run]
    split
    · exact .refl s
    · split
      · exact .refl s
      · have harmless := locate_harmless draws cwd home parent name source s.files
        cases located : locate draws cwd home parent name source s.files with
        | error e files =>
          rw [located] at harmless
          exact ⟨harmless.1, rfl⟩
        | ok found files =>
          obtain ⟨f, m⟩ := found
          rw [located] at harmless
          have start : Kept s { s with files := files } := ⟨harmless, rfl⟩
          have inner := start.trans
            (resolveAll_keeps (ih (trail ++ [name]) m) m.dependencies { s with files := files })
          dsimp only
          cases run : resolveAll (resolveDependency draws cwd home depth (trail ++ [name]) m)
              m.dependencies { s with files := files } with
          | error e s' => rwa [run] at inner
          | ok _ s' =>
            rw [run] at inner
            exact ⟨inner.files, inner.lock⟩

theorem grown_of_resolveAll
    (run : resolveAll (resolveDependency draws cwd home depth trail parent) declared s = .ok () s') :
    s.files.Grown s'.files := by
  have kept := resolveAll_keeps (resolveDependency_keeps draws cwd home depth trail parent) declared s
  rw [run] at kept
  exact kept.files

theorem resolveDependencies_keeps (draws : Draws) (cwd home : String) (m : Manifest)
    (s : InstallState) :
    Kept s (endState (resolveDependencies draws cwd home m s)) :=
  resolveAll_keeps (resolveDependency_keeps draws cwd home _ [] m) m.dependencies s

/-! ## The bound on the depth -/

theorem resolveAll_ne_tooDeep {root : Manifest} {names : List String} (depth : Nat) :
    ∀ (trail : List String) (parent : Manifest) (declared : List (String × Source)) (s : InstallState),
      Enough names depth trail → Table.names declared ⊆ names → declaredNames s.files root = names →
      ∀ s', resolveAll (resolveDependency draws cwd home depth trail parent) declared s ≠
        .error .tooDeep s' := by
  -- Entering a name takes one from the depth and puts a new name on the trail. The names that can
  -- follow stay the same, because making directories adds no manifest.
  induction depth with
  | zero => exact fun _ _ _ _ enough => absurd rfl enough.ne_zero
  | succ depth ih =>
    intro trail parent declared
    induction declared with
    | nil => exact fun s _ _ _ s' => nofun
    | cons entry rest ihRest =>
      obtain ⟨name, source⟩ := entry
      intro s enough subset same s'
      obtain ⟨here, later⟩ := List.cons_subset.mp subset
      have kept := resolveDependency_keeps draws cwd home (depth + 1) trail parent name source s
      rw [resolveAll_cons]
      cases run : resolveDependency draws cwd home (depth + 1) trail parent name source s with
      | ok _ s₁ =>
        rw [run] at kept
        exact ihRest s₁ enough later ((declaredNames_grown kept.files root).trans same) s'
      | error e s₁ =>
        rintro ⟨⟩
        have harmless := locate_harmless draws cwd home parent name source s.files
        rcases resolveDependency_error run with ⟨_, cyclic⟩ | ⟨files, failed⟩ |
          ⟨off, f, m, files, located, inside⟩
        · cases cyclic
        · rw [failed] at harmless
          exact harmless.2 rfl
        · rw [located] at harmless
          obtain ⟨_, _, loaded, _⟩ := locate_ok located
          have same' : declaredNames files root = names := by
            rw [declaredNames_grown harmless, same]
          exact ih (trail ++ [name]) m m.dependencies { s with files := files }
            (enough.enter here off) (same' ▸ names_subset_of_loadFrom loaded root) same' _ inside

theorem resolveDependencies_ne_tooDeep (draws : Draws) (cwd home : String) (m : Manifest)
    (s s' : InstallState) :
    resolveDependencies draws cwd home m s ≠ .error .tooDeep s' := by
  refine resolveAll_ne_tooDeep _ [] m m.dependencies s ?_ (names_subset_declaredNames s.files m) rfl s'
  rw [nameBound_eq]
  exact .start _

/-! ## Runs are walks -/

/-- The packages of finished dependencies are those resolved so far. -/
structure Settles (visits : List (Visit Fetched)) (s : InstallState) : Prop where
  found : visits.map Visit.found = s.settled
  named : ∀ v ∈ visits, v.found.package.name = v.name

theorem Settles.names (settles : Settles past s) :
    s.settled.map (·.package.name) = past.map Visit.name := by
  rw [← settles.found, List.map_map]
  exact List.map_congr_left settles.named

theorem Settles.concat {name : String} {f : Fetched} (settles : Settles past s)
    (named : f.package.name = name) (m : Manifest) :
    Settles (past ++ [⟨name, f, m⟩]) { s with settled := s.settled ++ [f] } := by
  constructor
  · rw [List.map_append, settles.found, List.map_singleton]
  · intro v member
    rcases List.mem_append.mp member with before | last
    · exact settles.named v before
    · rw [List.mem_singleton.mp last]
      exact named

theorem walk_of_resolveAll (depth : Nat) :
    ∀ (trail : List String) (parent : Manifest) (declared : List (String × Source))
      (s s' : InstallState) (past : List (Visit Fetched)),
      resolveAll (resolveDependency draws cwd home depth trail parent) declared s = .ok () s' →
      Settles past s →
      ∃ out, Walk (Lasting draws cwd home s'.files) trail past parent declared out ∧
        Settles out s' := by
  -- On the depth, for what is inside of a name, and in each step on the declarations.
  induction depth with
  | zero =>
    intro trail parent declared s s' past run settles
    cases declared with
    | nil =>
      cases run
      exact ⟨past, .finish, settles⟩
    | cons entry rest => cases run
  | succ depth ih =>
    intro trail parent declared
    induction declared with
    | nil =>
      rintro s s' past ⟨⟩ settles
      exact ⟨past, .finish, settles⟩
    | cons entry rest ihRest =>
      obtain ⟨name, source⟩ := entry
      intro s s' past run settles
      rw [resolveAll_cons] at run
      cases run₁ : resolveDependency draws cwd home (depth + 1) trail parent name source s with
      | error e s₁ =>
        rw [run₁] at run
        cases run
      | ok _ s₁ =>
        rw [run₁] at run
        have passed := resolveDependency_ok run₁
        rw [settles.names] at passed
        rcases passed with ⟨finished, rfl⟩ | ⟨new, off, f, m, files, s₂, located, inside, rfl⟩
        · obtain ⟨out, walk, settles'⟩ := ihRest s₁ s' past run settles
          exact ⟨out, .again finished walk, settles'⟩
        · obtain ⟨inner, within, settles₂⟩ := ih _ m m.dependencies _ s₂ past inside
            ⟨settles.found, settles.named⟩
          obtain ⟨out, walk, settles'⟩ := ihRest _ s' _ run
            (settles₂.concat (found_of_locate located).named m)
          -- The files grow from the locating to the end of the run.
          have grown := grown_of_resolveAll inside
          have grown' := grown_of_resolveAll run
          exact ⟨out, .enter new off ((lasting_of_locate located).mono (grown.trans grown'))
            (within.mono fun _ _ _ _ _ _ lasting => lasting.mono grown') walk, settles'⟩

/-- A walk over what can be located is what a run does, as far as the depth goes. -/
theorem resolveAll_of_walk {files : FileTree}
    (walk : Walk (Lasting draws cwd home files) trail past parent declared out) :
    ∀ (depth : Nat) (s : InstallState), files.Grown s.files → Settles past s →
      (∃ s', resolveAll (resolveDependency draws cwd home depth trail parent) declared s =
        .error .tooDeep s') ∨
      resolveAll (resolveDependency draws cwd home depth trail parent) declared s =
        .ok () { s with settled := out.map Visit.found } ∧
      Settles out { s with settled := out.map Visit.found } := by
  induction walk with
  | finish =>
    intro depth s grown settles
    rw [settles.found]
    exact .inr ⟨rfl, settles⟩
  | @again trail past out parent name source rest finished _ ih =>
    intro depth s grown settles
    cases depth with
    | zero => exact .inl ⟨s, rfl⟩
    | succ depth =>
      have passed :
          resolveDependency draws cwd home (depth + 1) trail parent name source s = .ok () s := by
        rw [resolveDependency_run, settles.names, if_pos finished]
      rw [resolveAll_cons, passed]
      exact ih (depth + 1) s grown settles
  | @enter trail past inner out parent m name source rest f new off lasting _ _ ihInner ihRest =>
    intro depth s grown settles
    cases depth with
    | zero => exact .inl ⟨s, rfl⟩
    | succ depth =>
      have located := lasting s.files grown
      have entered : ∀ result,
          resolveAll (resolveDependency draws cwd home depth (trail ++ [name]) m) m.dependencies s =
            result →
          resolveDependency draws cwd home (depth + 1) trail parent name source s =
            match result with
            | .error e s' => .error e s'
            | .ok _ s' => .ok () { s' with settled := s'.settled ++ [f] } := by
        rintro _ rfl
        rw [resolveDependency_run, settles.names, if_neg new, if_neg off, located]
      rcases ihInner depth s grown settles with ⟨s', deep⟩ | ⟨run, settles'⟩
      · rw [resolveAll_cons, entered _ deep]
        exact .inl ⟨s', rfl⟩
      · rw [resolveAll_cons, entered _ run]
        have settles₁ : Settles (inner ++ [⟨name, f, m⟩])
            { s with settled := inner.map Visit.found ++ [f] } :=
          settles'.concat (found_of_locate located).named m
        exact ihRest (depth + 1) { s with settled := inner.map Visit.found ++ [f] } grown settles₁

theorem walk_of_resolveDependencies (fresh : s.settled = [])
    (run : resolveDependencies draws cwd home m s = .ok () s') :
    ∃ out, Walk (Lasting draws cwd home s'.files) [] [] m m.dependencies out ∧ Settles out s' :=
  walk_of_resolveAll _ [] m m.dependencies s s' [] run ⟨fresh.symm, nofun⟩

theorem resolveDependencies_of_walk (fresh : s.settled = [])
    (walk : Walk (Lasting draws cwd home s.files) [] [] m m.dependencies out) :
    resolveDependencies draws cwd home m s = .ok () { s with settled := out.map Visit.found } := by
  rcases resolveAll_of_walk walk (nameBound s.files m) s (.refl _) ⟨fresh.symm, nofun⟩ with
    ⟨s', deep⟩ | ⟨run, _⟩
  · exact absurd deep (resolveDependencies_ne_tooDeep draws cwd home m s s')
  · exact run

end Smpl.Package
