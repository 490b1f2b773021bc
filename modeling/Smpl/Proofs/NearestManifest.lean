import Mathlib.Logic.Function.Iterate
import Smpl.CommandLine
import Smpl.Proofs.CleanPaths

/-!
# The nearest manifest

A command looks for the manifest in the directory it starts from, then in the directory around that,
and so on up to the root. It starts from a path itself, or from the directory of a file.

* Above a directory lie the directories that taking the parent again and again leads to. The root is
  reached after finitely many steps, and is the only directory that is its own parent
  (`Path.upwardFrom_eq_iterate`, `Path.dir_iterate_eq_iff`).
* Where the start can be looked at, or does not exist, so it is with the manifests of all directories
  around it: no file stands in the way (`CommandLine.Accessible.iterate`).
* So the manifest that is found is that of the innermost directory that holds one. There is none only
  if no directory up to the root holds one.

Main result: `CommandLine.findManifest_nearest`.
-/

namespace Smpl

/-! ## Walks that end at a file -/

namespace FileTree

variable {above : List FileTree} {tree : FileTree} {names : List String}

theorem fault_of_walk {fault : FileFault} (failed : walk above tree names = .error fault) :
    fault = .missing ∨ fault = .notDirectory := by
  induction names generalizing above tree with
  | nil =>
    rw [walk] at failed
    cases failed
  | cons name rest ih =>
    cases tree with
    | file contents =>
      cases failed
      exact .inr rfl
    | directory entries =>
      rw [walk_cons] at failed
      split at failed
      · exact ih failed
      split at failed
      · exact ih failed
      split at failed
      · exact ih failed
      · cases failed
        exact .inl rfl

/-- Whether a file stands in the way of one more name does not depend on the name. -/
theorem walk_concat_iff (name : String) :
    walk above tree (names ++ [name]) = .error .notDirectory ↔
      walk above tree names = .error .notDirectory ∨
        ∃ contents, walk above tree names = .ok (.file contents) := by
  induction names generalizing above tree with
  | nil =>
    cases tree with
    | file contents => simp [walk]
    | directory entries =>
      have passes : walk above (.directory entries) [name] ≠ .error .notDirectory := by
        rw [walk_cons]
        split
        · simp [walk]
        split
        · simp [walk]
        split <;> simp [walk]
      simpa [walk] using passes
  | cons first rest ih =>
    cases tree with
    | file contents => simp [walk]
    | directory entries =>
      rw [List.cons_append, walk_cons, walk_cons]
      split
      · exact ih
      split
      · exact ih
      split
      · exact ih
      · simp

end FileTree

/-! ## Directories around a directory -/

namespace Path

variable {walked : List (List Char)}

theorem dir_slash : dir "/" = "/" := by decide

theorem dir_iterate_of_root_le {origin : String} {depth n : Nat} (root : dir^[depth] origin = "/")
    (past : depth ≤ n) : dir^[n] origin = "/" := by
  obtain ⟨further, rfl⟩ := Nat.exists_eq_add_of_le' past
  rw [Function.iterate_add_apply, root]
  exact Function.iterate_fixed dir_slash further

theorem absolute_settled {cwd : String} (rooted : isAbsolute cwd = true) (start : String) :
    ∃ walked, Settled true walked ∧ (∀ name ∈ walked, '/' ∉ name) ∧
      absolute cwd start = ofNames true walked.reverse := by
  rw [absolute]
  split
  · next own =>
    refine ⟨(cleanNames start).reverse, own ▸ settled_cleanNames start, fun name member => ?_, ?_⟩
    · exact slash_not_mem_of_mem_cleanNames (List.mem_reverse.mp member)
    · rw [clean, own, List.reverse_reverse]
  · have given : cwd ≠ "" := by
      rintro rfl
      cases rooted
    refine ⟨walkedAlong cwd [start], rooted ▸ settled_walkedAlong cwd [start],
      fun name => slash_not_mem_walkedAlong, ?_⟩
    rw [join_eq given, rooted]

/-- The directories around a directory are what taking the parent again and again leads to. -/
theorem upwardFrom_eq_iterate (settled : Settled true walked) (plain : ∀ name ∈ walked, '/' ∉ name) :
    upwardFrom walked =
      (List.range (walked.length + 1)).map fun n => dir^[n] (ofNames true walked.reverse) := by
  induction settled with
  | start => rfl
  | @on outer name settled kept ih =>
    obtain ⟨single, plain⟩ := List.forall_mem_cons.mp plain
    rw [upwardFrom, ih plain, @List.range_succ_eq_map (name :: outer).length, List.map_cons,
      List.map_map]
    refine congrArg _ (List.map_congr_left fun n _ => ?_)
    show _ = dir^[n + 1] _
    rw [Function.iterate_succ_apply, dir_ofNames settled plain single]

theorem isAbsolute_ofNames_true (shortest : List (List Char)) :
    isAbsolute (ofNames true shortest) = true := by
  simp [isAbsolute, ofNames]

theorem foldl_ofNames (settled : Settled true walked) (plain : ∀ name ∈ walked, '/' ∉ name) :
    (names (ofNames true walked.reverse).toList).foldl (follow true) [] = walked := by
  have plain' : ∀ name ∈ walked.reverse, '/' ∉ name := fun name member =>
    plain name (List.mem_reverse.mp member)
  rw [foldl_names_ofNames true plain', settled.foldl]

theorem cleanNames_ofNames (settled : Settled true walked) (plain : ∀ name ∈ walked, '/' ∉ name) :
    cleanNames (ofNames true walked.reverse) = walked.reverse := by
  rw [cleanNames, isAbsolute_ofNames_true, foldl_ofNames settled plain]

/-- The root is reached after as many steps as there are names, and no sooner. -/
theorem dir_iterate_eq_iff (settled : Settled true walked) (plain : ∀ name ∈ walked, '/' ∉ name) :
    dir^[walked.length] (ofNames true walked.reverse) = "/" ∧
      ∀ n, dir (dir^[n] (ofNames true walked.reverse)) = dir^[n] (ofNames true walked.reverse) ↔
        walked.length ≤ n := by
  induction settled with
  | start =>
    refine ⟨rfl, fun n => iff_of_true ?_ (Nat.zero_le n)⟩
    have root : dir^[n] (ofNames true [].reverse) = "/" := dir_iterate_of_root_le rfl (Nat.zero_le n)
    rw [root, dir_slash]
  | @on outer name settled kept ih =>
    obtain ⟨single, plain'⟩ := List.forall_mem_cons.mp plain
    obtain ⟨root, steps⟩ := ih plain'
    have parent := dir_ofNames settled plain' single
    refine ⟨?_, fun n => ?_⟩
    · rw [List.length_cons, Function.iterate_succ_apply, parent]
      exact root
    · cases n with
      | zero =>
        refine iff_of_false (fun same => ?_) (by simp)
        have names := congrArg cleanNames (parent.symm.trans same)
        rw [cleanNames_ofNames settled plain', Function.iterate_zero_apply,
          cleanNames_ofNames (.on settled kept) plain] at names
        have lengths := congrArg List.length names
        simp at lengths
      | succ n =>
        rw [Function.iterate_succ_apply, parent, steps, List.length_cons, Nat.add_le_add_iff_right]

theorem join_ofNames (settled : Settled true walked) (plain : ∀ name ∈ walked, '/' ∉ name)
    {last : String} (segment : IsSegment last) :
    join [ofNames true walked.reverse, last] = ofNames true (last.toList :: walked).reverse := by
  have given : ofNames true walked.reverse ≠ "" := fun empty =>
    absurd (empty ▸ isAbsolute_ofNames_true walked.reverse) (by decide)
  rw [join_eq given, walkedAlong, isAbsolute_ofNames_true, List.flatMap_singleton, List.foldl_append,
    foldl_ofNames settled plain, names_eq_singleton segment.plain, List.foldl_cons, List.foldl_nil,
    follow_of_isProper segment.proper]

end Path

/-! ## Looking at paths -/

namespace FileTree

variable {walked : List (List Char)}

/-- The names that lead to a directory of some names, last first. -/
def pathTo (walked : List (List Char)) : List String := "" :: walked.reverse.map String.ofList

theorem pathTo_cons (name : List Char) (walked : List (List Char)) :
    pathTo (name :: walked) = pathTo walked ++ [String.ofList name] := by
  simp [pathTo]

theorem get_ofNames (files : FileTree) (plain : ∀ name ∈ walked, '/' ∉ name) :
    files.get (Path.ofNames true walked.reverse) = walk [] files (pathTo walked) := by
  rw [get, pathNames, Path.ofNames, if_pos rfl, String.toList_ofList, Path.names, if_pos rfl]
  cases walked with
  | nil =>
    -- The path of the root has one more empty name.
    cases files with
    | file contents => rfl
    | directory entries => rfl
  | cons name outer =>
    have plain' : ∀ other ∈ (name :: outer).reverse, '/' ∉ other := fun other member =>
      plain other (List.mem_reverse.mp member)
    rw [Path.names_joinNames (by simp) plain', List.map_cons]
    rfl

end FileTree

/-! ## Looking for a manifest -/

namespace CommandLine

open Package

variable {files : FileTree} {walked : List (List Char)}

theorem isSegment_manifestName : Path.IsSegment manifestName :=
  ⟨⟨by decide, by decide, by decide⟩, by decide⟩

/-- A directory holds a manifest, which is a file. -/
def Holds (files : FileTree) (dir : String) : Prop :=
  ∃ contents, files.get (Path.join [dir, manifestName]) = .ok (.file contents)

/-- No file stands in the way of what a directory holds. -/
def Accessible (files : FileTree) (dir : String) : Prop :=
  files.get (Path.join [dir, manifestName]) ≠ .error .notDirectory

theorem accessible_ofNames_iff (settled : Path.Settled true walked)
    (plain : ∀ name ∈ walked, '/' ∉ name) :
    Accessible files (Path.ofNames true walked.reverse) ↔
      ¬ (files.get (Path.ofNames true walked.reverse) = .error .notDirectory ∨
        ∃ contents, files.get (Path.ofNames true walked.reverse) = .ok (.file contents)) := by
  have candidate := isSegment_manifestName
  have plain' : ∀ name ∈ manifestName.toList :: walked, '/' ∉ name :=
    List.forall_mem_cons.mpr ⟨candidate.plain, plain⟩
  rw [Accessible, Path.join_ofNames settled plain candidate, FileTree.get_ofNames files plain',
    FileTree.get_ofNames files plain, FileTree.pathTo_cons]
  exact not_congr (FileTree.walk_concat_iff _)

/-- What is around a place that no file stands in the way of is accessible. -/
theorem accessible_outer {name : List Char} (settled : Path.Settled true walked)
    (plain : ∀ other ∈ name :: walked, '/' ∉ other)
    (passes : files.get (Path.ofNames true (name :: walked).reverse) ≠ .error .notDirectory) :
    Accessible files (Path.ofNames true walked.reverse) := by
  obtain ⟨_, plain'⟩ := List.forall_mem_cons.mp plain
  rw [accessible_ofNames_iff settled plain', FileTree.get_ofNames files plain']
  rw [FileTree.get_ofNames files plain, FileTree.pathTo_cons] at passes
  exact mt (FileTree.walk_concat_iff _).mpr passes

theorem Accessible.iterate (settled : Path.Settled true walked) (plain : ∀ name ∈ walked, '/' ∉ name)
    (accessible : Accessible files (Path.ofNames true walked.reverse)) (n : Nat) :
    Accessible files (Path.dir^[n] (Path.ofNames true walked.reverse)) := by
  induction settled generalizing n with
  | start =>
    have root : Path.dir^[n] (Path.ofNames true [].reverse) = "/" :=
      Path.dir_iterate_of_root_le rfl (Nat.zero_le n)
    rw [root]
    exact accessible
  | @on outer name settled kept ih =>
    obtain ⟨single, plain'⟩ := List.forall_mem_cons.mp plain
    cases n with
    | zero => exact accessible
    | succ n =>
      rw [Function.iterate_succ_apply, Path.dir_ofNames settled plain' single]
      have around := (accessible_ofNames_iff (.on settled kept) plain).mp accessible
      exact ih plain' (accessible_outer settled plain fun blocked => around (.inl blocked)) n

theorem firstManifest_cons_of_holds {dir : String} (holds : Holds files dir) (rest : List String) :
    firstManifest files (dir :: rest) = .ok (some (Path.join [dir, manifestName])) := by
  obtain ⟨contents, found⟩ := holds
  rw [firstManifest, FileTree.stat, found]
  rfl

theorem firstManifest_cons_of_not_holds {dir : String} (accessible : Accessible files dir)
    (absent : ¬ Holds files dir) (rest : List String) :
    firstManifest files (dir :: rest) = firstManifest files rest := by
  rw [firstManifest, FileTree.stat]
  cases found : files.get (Path.join [dir, manifestName]) with
  | ok tree =>
    cases tree with
    | file contents => exact absurd ⟨contents, found⟩ absent
    | directory entries => rfl
  | error fault =>
    rcases FileTree.fault_of_walk found with rfl | rfl
    · rfl
    · exact absurd found accessible

/-- The first of some directories that holds a manifest is found, if there is one. -/
theorem firstManifest_range (dirs : Nat → String) (accessible : ∀ n, Accessible files (dirs n))
    (count : Nat) :
    (∃ n < count, firstManifest files ((List.range count).map dirs) =
        .ok (some (Path.join [dirs n, manifestName])) ∧
      Holds files (dirs n) ∧ ∀ m < n, ¬ Holds files (dirs m)) ∨
    (firstManifest files ((List.range count).map dirs) = .ok none ∧
      ∀ n < count, ¬ Holds files (dirs n)) := by
  induction count generalizing dirs with
  | zero => exact .inr ⟨rfl, nofun⟩
  | succ count ih =>
    rw [List.range_succ_eq_map, List.map_cons, List.map_map]
    by_cases here : Holds files (dirs 0)
    · exact .inl ⟨0, Nat.succ_pos count, firstManifest_cons_of_holds here _, here, nofun⟩
    · rw [firstManifest_cons_of_not_holds (accessible 0) here]
      rcases ih (dirs ∘ Nat.succ) fun n => accessible (n + 1) with
        ⟨n, inside, found, holds, first⟩ | ⟨nothing, absent⟩
      · refine .inl ⟨n + 1, Nat.succ_lt_succ inside, found, holds, fun m before => ?_⟩
        cases m with
        | zero => exact here
        | succ m => exact first m (Nat.lt_of_succ_lt_succ before)
      · refine .inr ⟨nothing, fun n inside => ?_⟩
        cases n with
        | zero => exact here
        | succ n => exact absent n (Nat.lt_of_succ_lt_succ inside)

/-- The manifest of the innermost directory, from a directory on, that holds one. -/
def Nearest (files : FileTree) (origin path : String) : Prop :=
  ∃ n, path = Path.join [Path.dir^[n] origin, manifestName] ∧
    Holds files (Path.dir^[n] origin) ∧ ∀ m < n, ¬ Holds files (Path.dir^[m] origin)

theorem Nearest.unique {origin path other : String} (nearest : Nearest files origin path)
    (nearest' : Nearest files origin other) : path = other := by
  obtain ⟨n, rfl, holds, first⟩ := nearest
  obtain ⟨m, rfl, holds', first'⟩ := nearest'
  rcases Nat.lt_trichotomy n m with before | rfl | after
  · exact absurd holds (first' n before)
  · rfl
  · exact absurd holds' (first m after)

/-- Where looking begins: in the directory of a file, or at the path itself. -/
structure Begins (files : FileTree) (path origin : String) : Prop where
  file : ∀ contents, files.get path = .ok (.file contents) → origin = Path.dir path
  other : (∀ contents, files.get path ≠ .ok (.file contents)) → origin = path

theorem begins_originOf (files : FileTree) (path : String) :
    Begins files path (originOf files path) where
  file contents found := by
    rw [originOf, found]
    exact if_neg Bool.false_ne_true
  other noFile := by
    rw [originOf]
    split
    · next tree found =>
      cases tree with
      | file contents => exact absurd found (noFile contents)
      | directory entries => rfl
    · rfl

theorem accessible_originOf (settled : Path.Settled true walked) (plain : ∀ name ∈ walked, '/' ∉ name)
    (passes : files.get (Path.ofNames true walked.reverse) ≠ .error .notDirectory) :
    ∃ outer, Path.Settled true outer ∧ (∀ name ∈ outer, '/' ∉ name) ∧
      originOf files (Path.ofNames true walked.reverse) = Path.ofNames true outer.reverse ∧
      Accessible files (Path.ofNames true outer.reverse) := by
  have begins := begins_originOf files (Path.ofNames true walked.reverse)
  by_cases file : ∃ contents, files.get (Path.ofNames true walked.reverse) = .ok (.file contents)
  · obtain ⟨contents, found⟩ := file
    cases settled with
    | start =>
      -- The root is no file, because a path leads to it.
      rw [FileTree.get_ofNames files plain] at found
      cases files with
      | file _ => cases found
      | directory _ => cases found
    | @on outer name settled kept =>
      obtain ⟨single, plain'⟩ := List.forall_mem_cons.mp plain
      exact ⟨outer, settled, plain',
        (begins.file contents found).trans (Path.dir_ofNames settled plain' single),
        accessible_outer settled plain passes⟩
  · exact ⟨walked, settled, plain, begins.other fun contents found => file ⟨contents, found⟩,
      (accessible_ofNames_iff settled plain).mpr (not_or.mpr ⟨passes, file⟩)⟩

/-- The nearest manifest is found, from any place that can be looked at or does not exist. The
directories that are looked at are the parents one after the other, up to the root, which is the first
one that is its own parent. -/
theorem findManifest_nearest {files : FileTree} {cwd start : String}
    (rooted : Path.isAbsolute cwd = true)
    (reached : ∀ e, files.stat (Path.absolute cwd start) = .error e → e.fault = .missing) :
    ∃ origin depth, Begins files (Path.absolute cwd start) origin ∧
      Path.dir^[depth] origin = "/" ∧
      (∀ n, Path.dir (Path.dir^[n] origin) = Path.dir^[n] origin ↔ depth ≤ n) ∧
      (∀ path, findManifest files cwd start = .ok path ↔ Nearest files origin path) ∧
      ∀ e, findManifest files cwd start = .error e ↔
        e = .notFound origin ∧ ∀ n, ¬ Holds files (Path.dir^[n] origin) := by
  obtain ⟨walked, settled, plain, path⟩ := Path.absolute_settled rooted start
  have passes : files.get (Path.absolute cwd start) ≠ .error .notDirectory := fun blocked => by
    have missing := reached ⟨"stat", Path.absolute cwd start, .notDirectory⟩
      (by rw [FileTree.stat, blocked]; rfl)
    cases missing
  obtain ⟨outer, settled, plain, begins, accessible⟩ :=
    accessible_originOf settled plain (path ▸ passes)
  rw [← path] at begins
  have accessible := accessible.iterate settled plain
  obtain ⟨root, parents⟩ := Path.dir_iterate_eq_iff settled plain
  have upward : Path.upward (Path.ofNames true outer.reverse) =
      (List.range (outer.length + 1)).map fun n => Path.dir^[n] (Path.ofNames true outer.reverse) := by
    rw [Path.upward, Path.cleanNames_ofNames settled plain, List.reverse_reverse,
      Path.upwardFrom_eq_iterate settled plain]
  generalize Path.ofNames true outer.reverse = origin at begins accessible root parents upward
  refine ⟨origin, outer.length, begins ▸ begins_originOf files _, root, parents, ?_⟩
  rcases firstManifest_range _ accessible (outer.length + 1) with
    ⟨n, _, found, holds, first⟩ | ⟨nothing, absent⟩
  · have nearest : Nearest files origin (Path.join [Path.dir^[n] origin, manifestName]) :=
      ⟨n, rfl, holds, first⟩
    have result : findManifest files cwd start = .ok (Path.join [Path.dir^[n] origin, manifestName]) := by
      unfold findManifest
      simp only [begins, upward, found]
    rw [result]
    refine ⟨fun other => ⟨fun same => ?_, fun nearest' => ?_⟩, fun e => ⟨nofun, ?_⟩⟩
    · cases same
      exact nearest
    · rw [nearest.unique nearest']
    · rintro ⟨_, absent⟩
      exact absurd holds (absent n)
  · have result : findManifest files cwd start = .error (.notFound origin) := by
      unfold findManifest
      simp only [begins, upward, nothing]
    -- From the root on, the same directory is met again and again.
    have never : ∀ n, ¬ Holds files (Path.dir^[n] origin) := by
      intro n
      rcases Nat.lt_or_ge n (outer.length + 1) with inside | past
      · exact absent n inside
      · rw [Path.dir_iterate_of_root_le root (Nat.le_of_succ_le past), ← root]
        exact absent _ (Nat.lt_succ_self _)
    rw [result]
    refine ⟨fun other => ⟨nofun, fun ⟨n, _, holds, _⟩ => absurd holds (never n)⟩, fun e => ?_⟩
    exact ⟨fun same => ⟨(Except.error.inj same).symm, never⟩, fun ⟨same, _⟩ => same ▸ rfl⟩

/-- A package in whose inner directory a directory has the name of manifests. -/
def nestedFiles : FileTree :=
  .directory [("app", .directory
    [("lib", .directory [("package.yml", .directory [])]), ("package.yml", .file .empty)])]

/-- From a program that does not exist, the manifest of the outer directory is the nearest one. -/
theorem nestedFiles_nearest : ∃ origin, Begins nestedFiles "/app/lib/main.json" origin ∧
    findManifest nestedFiles "/app" "lib/main.json" = .ok "/app/package.yml" ∧
    Nearest nestedFiles origin "/app/package.yml" := by
  have place : Path.absolute "/app" "lib/main.json" = "/app/lib/main.json" := by decide +kernel
  have looked : nestedFiles.get (Path.absolute "/app" "lib/main.json") = .error .missing := by
    rw [place]
    rfl
  have found : findManifest nestedFiles "/app" "lib/main.json" = .ok "/app/package.yml" :=
    eq_ok_of_toOption (by decide +kernel)
  obtain ⟨origin, _, begins, _, _, nearest, _⟩ :=
    @findManifest_nearest nestedFiles "/app" "lib/main.json" (by decide) fun e failed => by
      rw [FileTree.stat, looked] at failed
      cases failed
      rfl
  exact ⟨origin, place ▸ begins, found, (nearest _).mp found⟩

end CommandLine

end Smpl
