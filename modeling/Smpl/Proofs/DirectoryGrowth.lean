import Mathlib.Data.List.Basic
import Smpl.FileTree

/-!
# Making directories

Making a directory, and those on the way to it, is all that installing does to files. It leaves every
file as it is: what a path led to before is still there, of the same kind and with the same files in
it (`FileTree.Grown`). So

* a path that led somewhere leads to the like of it afterwards (`FileTree.get_grown`);
* the files of the whole tree are the same (`FileTree.Grown.files_eq`);
* making the directory once more changes nothing (`FileTree.mkdirAll_again`).
-/

namespace Smpl

/-! ## Tables -/

namespace Table

variable {α : Type} {name other : String} {value : α} {table : Table α}

theorem get?_replace_self (present : get? name table = some value) (new : α) :
    get? name (replace name new table) = some new := by
  induction table with
  | nil => cases present
  | cons entry rest ih =>
    obtain ⟨key, old⟩ := entry
    rw [get?] at present
    rw [replace]
    split at present
    · next here => rw [if_pos here, get?, if_pos here]
    · next apart => rw [if_neg apart, get?, if_neg apart, ih present]

theorem get?_replace_other (apart : other ≠ name) (new : α) :
    get? other (replace name new table) = get? other table := by
  induction table with
  | nil => rfl
  | cons entry rest ih =>
    obtain ⟨key, old⟩ := entry
    rw [replace]
    split
    · next here => rw [get?, get?, if_neg (here ▸ apart.symm), if_neg (here ▸ apart.symm)]
    · rw [get?, get?, ih]

theorem replace_eq_self (present : get? name table = some value) : replace name value table = table := by
  induction table with
  | nil => rfl
  | cons entry rest ih =>
    obtain ⟨key, old⟩ := entry
    rw [get?] at present
    rw [replace]
    split at present
    · next here =>
      cases present
      rw [if_pos here]
    · next apart => rw [if_neg apart, ih present]

theorem get?_set_self (name : String) (value : α) (table : Table α) :
    get? name (set name value table) = some value := by
  induction table with
  | nil => simp [set, get?]
  | cons entry rest ih =>
    obtain ⟨key, old⟩ := entry
    rw [set]
    split
    · simp [get?]
    · next apart =>
      split
      · simp [get?]
      · rw [get?, if_neg apart, ih]

theorem get?_set_other (apart : other ≠ name) (value : α) (table : Table α) :
    get? other (set name value table) = get? other table := by
  induction table with
  | nil => simp [set, get?, Ne.symm apart]
  | cons entry rest ih =>
    obtain ⟨key, old⟩ := entry
    rw [set]
    split
    · next here => rw [get?, get?, if_neg apart.symm, if_neg (here ▸ apart.symm)]
    · split
      · rw [get?, if_neg apart.symm]
      · rw [get?, get?, ih]

end Table

namespace FileTree

/-! ## Where a tree is -/

/-- The tree at the end of some names, none of which is dots. -/
def at? : FileTree → List String → Option FileTree
  | tree, [] => some tree
  | .file _, _ :: _ => none
  | .directory entries, name :: rest =>
    match Table.get? name entries with
    | none => none
    | some tree => at? tree rest

theorem at?_concat {tree : FileTree} {names : List String} {entries : List (String × FileTree)}
    (found : tree.at? names = some (.directory entries)) (name : String) :
    tree.at? (names ++ [name]) = Table.get? name entries := by
  induction names generalizing tree with
  | nil =>
    cases found
    rw [List.nil_append, at?]
    cases Table.get? name entries with
    | none => rfl
    | some below => rfl
  | cons first rest ih =>
    cases tree with
    | file contents => cases found
    | directory here =>
      rw [List.cons_append]
      rw [at?] at found ⊢
      cases step : Table.get? first here with
      | none =>
        rw [step] at found
        cases found
      | some below =>
        rw [step] at found
        exact ih found

/-- A place in a tree: the names that lead to it and the directories on the way, both innermost
first, and what is there. -/
inductive Located (root : FileTree) : List String → List FileTree → FileTree → Prop
  | root : Located root [] [] root
  | child {here : List String} {above : List FileTree} {entries : List (String × FileTree)}
      {name : String} {tree : FileTree} :
      Located root here above (.directory entries) → Table.get? name entries = some tree →
      Located root (name :: here) (.directory entries :: above) tree

theorem Located.at? {root tree : FileTree} {here : List String} {above : List FileTree}
    (located : Located root here above tree) : root.at? here.reverse = some tree := by
  induction located with
  | root => rfl
  | child _ found ih => rw [List.reverse_cons, at?_concat ih, found]

/-! ## The files of a tree -/

/-- Two trees of one kind with the same files. -/
def Same (tree tree' : FileTree) : Prop :=
  tree'.isDirectory = tree.isDirectory ∧
    ∀ skips here, tree'.filesIn skips here = tree.filesIn skips here

theorem Same.refl (tree : FileTree) : Same tree tree := ⟨rfl, fun _ _ => rfl⟩

theorem Same.trans {a b c : FileTree} (first : Same a b) (second : Same b c) : Same a c :=
  ⟨second.1.trans first.1, fun skips here => (second.2 skips here).trans (first.2 skips here)⟩

theorem Same.eq_file {contents : ByteArray} {tree : FileTree} (same : Same (.file contents) tree) :
    tree = .file contents := by
  cases tree with
  | directory entries => cases same.1
  | file other =>
    have files := same.2 (fun _ => false) []
    simpa [filesIn] using files

theorem filesInEntries_replace {name : String} {tree tree' : FileTree}
    {entries : List (String × FileTree)} (found : Table.get? name entries = some tree)
    (same : Same tree tree') (skips : String → Bool) (here : List String) :
    filesInEntries skips here (Table.replace name tree' entries) =
      filesInEntries skips here entries := by
  induction entries with
  | nil => rfl
  | cons entry rest ih =>
    obtain ⟨key, old⟩ := entry
    rw [Table.get?] at found
    rw [Table.replace]
    split at found
    · next matched =>
      cases found
      rw [if_pos matched, filesInEntries, filesInEntries, same.1, same.2]
    · next apart => rw [if_neg apart, filesInEntries, filesInEntries, ih found]

theorem filesInEntries_set {name : String} {tree : FileTree} {entries : List (String × FileTree)}
    (absent : Table.get? name entries = none) (bare : ∀ skips here, tree.filesIn skips here = [])
    (skips : String → Bool) (here : List String) :
    filesInEntries skips here (Table.set name tree entries) = filesInEntries skips here entries := by
  have nothing : ∀ rest, filesInEntries skips here ((name, tree) :: rest) =
      filesInEntries skips here rest := by
    intro rest
    rw [filesInEntries, bare, ite_self, List.nil_append]
  induction entries with
  | nil => exact nothing []
  | cons entry rest ih =>
    obtain ⟨key, old⟩ := entry
    rw [Table.get?] at absent
    rw [Table.set]
    split at absent
    · cases absent
    · next apart =>
      rw [if_neg apart]
      split
      · exact nothing _
      · rw [filesInEntries, filesInEntries, ih absent]

theorem filesIn_chain (names : List String) (skips : String → Bool) (here : List String) :
    (chain names).filesIn skips here = [] := by
  induction names generalizing here with
  | nil => simp [chain, filesIn, filesInEntries]
  | cons name rest ih => simp [chain, filesIn, filesInEntries, ih]

theorem filesIn_subset_of_get? {name : String} {tree : FileTree} {entries : List (String × FileTree)}
    (found : Table.get? name entries = some tree) (here : List String) :
    tree.filesIn (fun _ => false) (here ++ [name]) ⊆
      filesInEntries (fun _ => false) here entries := by
  induction entries with
  | nil => cases found
  | cons entry rest ih =>
    obtain ⟨key, old⟩ := entry
    rw [Table.get?] at found
    rw [filesInEntries, Bool.and_false, if_neg Bool.false_ne_true]
    split at found
    · next matched =>
      cases found
      rw [matched]
      exact List.subset_append_left _ _
    · exact List.Subset.trans (ih found) (List.subset_append_right _ _)

/-- A file that names lead to is among the files of the tree. -/
theorem mem_filesIn_of_at? {tree : FileTree} {names : List String} {contents : ByteArray}
    (found : tree.at? names = some (.file contents)) (here : List String) :
    (here ++ names, contents) ∈ tree.filesIn (fun _ => false) here := by
  induction names generalizing tree here with
  | nil =>
    cases found
    simp [filesIn]
  | cons name rest ih =>
    cases tree with
    | file _ => cases found
    | directory entries =>
      rw [at?] at found
      cases step : Table.get? name entries with
      | none =>
        rw [step] at found
        cases found
      | some below =>
        rw [step] at found
        have member := filesIn_subset_of_get? step here (ih found (here ++ [name]))
        rw [List.append_assoc] at member
        exact member

/-! ## Growth -/

/-- All that is in the one tree is in the other, of the same kind and with the same files. -/
def Grown (tree tree' : FileTree) : Prop :=
  ∀ names below, tree.at? names = some below →
    ∃ below', tree'.at? names = some below' ∧ Same below below'

theorem Grown.refl (tree : FileTree) : Grown tree tree :=
  fun _ below found => ⟨below, found, .refl below⟩

theorem Grown.trans {a b c : FileTree} (first : Grown a b) (second : Grown b c) : Grown a c := by
  intro names below found
  obtain ⟨below', found', same⟩ := first names below found
  obtain ⟨below'', found'', same'⟩ := second names below' found'
  exact ⟨below'', found'', same.trans same'⟩

theorem Grown.same {tree tree' : FileTree} (grown : Grown tree tree') : Same tree tree' := by
  obtain ⟨below, found, same⟩ := grown [] tree rfl
  cases found
  exact same

theorem Grown.files_eq {tree tree' : FileTree} (grown : Grown tree tree') (skips : String → Bool) :
    tree'.files skips = tree.files skips :=
  grown.same.2 skips []

/-- Growth at the entry of one name is growth of the directory. -/
theorem grown_directory {entries entries' : List (String × FileTree)} {name : String}
    (files : ∀ skips here, filesInEntries skips here entries' = filesInEntries skips here entries)
    (others : ∀ other, other ≠ name → Table.get? other entries' = Table.get? other entries)
    (entry : ∀ tree, Table.get? name entries = some tree →
      ∃ tree', Table.get? name entries' = some tree' ∧ Grown tree tree') :
    Grown (.directory entries) (.directory entries') := by
  intro names below found
  cases names with
  | nil =>
    cases found
    exact ⟨_, rfl, rfl, fun skips here => by rw [filesIn, filesIn, files]⟩
  | cons first rest =>
    rw [at?] at found
    by_cases here : first = name
    · subst here
      cases step : Table.get? first entries with
      | none =>
        rw [step] at found
        cases found
      | some tree =>
        rw [step] at found
        obtain ⟨tree', step', grown⟩ := entry tree step
        obtain ⟨below', found', same⟩ := grown rest below found
        exact ⟨below', by rw [at?, step']; exact found', same⟩
    · refine ⟨below, ?_, .refl below⟩
      rw [at?, others first here]
      exact found

theorem makeDirectories_grown {tree tree' : FileTree} {names : List String}
    (made : makeDirectories tree names = .ok tree') : Grown tree tree' := by
  fun_induction makeDirectories tree names generalizing tree' with
  | case1 => cases made
  | case2 tree =>
    cases made
    exact .refl tree
  | case3 entries name rest absent =>
    cases made
    refine grown_directory (filesInEntries_set absent (filesIn_chain rest))
      (fun other apart => Table.get?_set_other apart _ entries) fun tree found => ?_
    rw [absent] at found
    cases found
  | case4 entries name rest tree found below made' ih =>
    cases made
    have grown := ih made'
    refine grown_directory (filesInEntries_replace found grown.same)
      (fun other apart => Table.get?_replace_other apart below) fun tree again => ?_
    rw [found] at again
    cases again
    exact ⟨below, Table.get?_replace_self found below, grown⟩
  | case5 => cases made

theorem at?_chain (names : List String) : (chain names).at? names = some (.directory []) := by
  induction names with
  | nil => rfl
  | cons name rest ih => simpa [chain, at?, Table.get?] using ih

theorem at?_makeDirectories {tree tree' : FileTree} {names : List String}
    (made : makeDirectories tree names = .ok tree') :
    ∃ entries, tree'.at? names = some (.directory entries) := by
  fun_induction makeDirectories tree names generalizing tree' with
  | case1 => cases made
  | case2 tree notFile =>
    cases made
    cases tree with
    | file contents => exact absurd rfl (notFile contents)
    | directory entries => exact ⟨entries, rfl⟩
  | case3 entries name rest absent =>
    cases made
    -- The whole rest of the way is new: a chain of directories.
    exact ⟨[], by rw [at?, Table.get?_set_self]; exact at?_chain rest⟩
  | case4 entries name rest tree found below made' ih =>
    cases made
    obtain ⟨inside, at'⟩ := ih made'
    exact ⟨inside, by rw [at?, Table.get?_replace_self found]; exact at'⟩
  | case5 => cases made

theorem makeDirectories_eq_self {tree : FileTree} {names : List String}
    {entries : List (String × FileTree)} (found : tree.at? names = some (.directory entries)) :
    makeDirectories tree names = .ok tree := by
  induction names generalizing tree with
  | nil =>
    cases found
    rfl
  | cons name rest ih =>
    cases tree with
    | file _ => cases found
    | directory here =>
      rw [at?] at found
      rw [makeDirectories]
      cases step : Table.get? name here with
      | none =>
        rw [step] at found
        cases found
      | some below =>
        rw [step] at found
        simp only [ih found, Table.replace_eq_self step]

theorem mkdirAll_ok {tree tree' : FileTree} {path : String} (made : tree.mkdirAll path = .ok tree') :
    makeDirectories tree (cleanNames path) = .ok tree' := by
  rw [mkdirAll] at made
  cases result : makeDirectories tree ((Path.cleanNames path).map String.ofList) with
  | error n =>
    rw [result] at made
    cases made
  | ok made' =>
    rw [result] at made
    cases made
    exact result

theorem mkdirAll_grown {tree tree' : FileTree} {path : String} (made : tree.mkdirAll path = .ok tree') :
    Grown tree tree' :=
  makeDirectories_grown (mkdirAll_ok made)

/-- A directory that was made is there for good. -/
theorem mkdirAll_again {tree made grown : FileTree} {path : String}
    (first : tree.mkdirAll path = .ok made) (later : Grown made grown) :
    grown.mkdirAll path = .ok grown := by
  obtain ⟨entries, found⟩ := at?_makeDirectories (mkdirAll_ok first)
  obtain ⟨below, found', same⟩ := later _ _ found
  cases below with
  | file _ => cases same.1
  | directory entries' =>
    have made' := makeDirectories_eq_self found'
    rw [cleanNames] at made'
    rw [mkdirAll, made']
    rfl

/-! ## Paths -/

theorem walk_cons (above : List FileTree) (entries : List (String × FileTree)) (name : String)
    (rest : List String) :
    walk above (.directory entries) (name :: rest) =
      if name = "" ∨ name = "." then walk above (.directory entries) rest
      else if name = ".." then walk above.tail (above.headD (.directory entries)) rest
      else
        match Table.get? name entries with
        | some tree => walk (.directory entries :: above) tree rest
        | none => .error .missing := by
  cases above with
  | nil => rw [walk]; rfl
  | cons parent further => rw [walk]; rfl

/-- Names that lead somewhere lead to the like of it in a grown tree. -/
theorem walk_grown {root root' : FileTree} (grown : Grown root root') {names : List String} :
    ∀ {here : List String} {above above' : List FileTree} {tree tree' below : FileTree},
      Located root here above tree → Located root' here above' tree' →
      walk above tree names = .ok below →
      ∃ below', walk above' tree' names = .ok below' ∧ Same below below' := by
  -- The two walks are always at the same place, so that dots lead back to the same place too.
  induction names with
  | nil =>
    intro here above above' tree tree' below located located' walked
    rw [walk] at walked
    cases walked
    obtain ⟨found, at', same⟩ := grown _ _ located.at?
    rw [located'.at?] at at'
    cases at'
    exact ⟨tree', by rw [walk], same⟩
  | cons name rest ih =>
    intro here above above' tree tree' below located located' walked
    cases tree with
    | file _ => cases walked
    | directory entries =>
      obtain ⟨found, at', same⟩ := grown _ _ located.at?
      rw [located'.at?] at at'
      cases at'
      cases tree' with
      | file _ => cases same.1
      | directory entries' =>
        rw [walk_cons] at walked ⊢
        split at walked
        · next dot =>
          rw [if_pos dot]
          exact ih located located' walked
        · next proper =>
          rw [if_neg proper]
          split at walked
          · next dots =>
            rw [if_pos dots]
            cases located with
            | root =>
              cases located'
              exact ih .root .root walked
            | child outer _ =>
              cases located' with
              | child outer' _ => exact ih outer outer' walked
          · next notDots =>
            rw [if_neg notDots]
            cases step : Table.get? name entries with
            | none =>
              rw [step] at walked
              cases walked
            | some child =>
              rw [step] at walked
              have inside := located.child step
              obtain ⟨child', at', _⟩ := grown _ _ inside.at?
              rw [List.reverse_cons, at?_concat located'.at?] at at'
              simp only [at']
              exact ih inside (located'.child at') walked

theorem get_grown {root root' below : FileTree} (grown : Grown root root') {path : String}
    (found : root.get path = .ok below) :
    ∃ below', root'.get path = .ok below' ∧ Same below below' :=
  walk_grown grown .root .root found

theorem openAt_grown {root root' : FileTree} (grown : Grown root root') {path : String}
    {contents : ByteArray} (opened : root.openAt path = .ok (.file contents)) :
    root'.openAt path = .ok (.file contents) := by
  rw [openAt] at opened
  cases found : root.get path with
  | error fault =>
    rw [found] at opened
    cases opened
  | ok below =>
    rw [found] at opened
    cases opened
    obtain ⟨below', found', same⟩ := get_grown grown found
    rw [openAt, found', same.eq_file]
    rfl

/-- A name between the slashes of a path that is no dots. -/
def IsProper (name : String) : Prop := name ≠ "" ∧ name ≠ "." ∧ name ≠ ".."

/-- A file at the end of names is among the files of the tree, under a path with the same last
name. -/
theorem mem_files_of_walk {root : FileTree} {last : String} (proper : IsProper last)
    {names : List String} :
    ∀ {here : List String} {above : List FileTree} {tree : FileTree} {contents : ByteArray},
      Located root here above tree → names.getLast? = some last →
      walk above tree names = .ok (.file contents) →
      ∃ path, (path, contents) ∈ root.files (fun _ => false) ∧ path.getLast? = some last := by
  induction names with
  | nil =>
    intro here above tree contents _ ends _
    cases ends
  | cons name rest ih =>
    intro here above tree contents located ends walked
    cases tree with
    | file _ => cases walked
    | directory entries =>
      rw [walk_cons] at walked
      cases rest with
      | nil =>
        rw [List.getLast?_singleton, Option.some.injEq] at ends
        subst ends
        rw [if_neg (not_or.mpr ⟨proper.1, proper.2.1⟩), if_neg proper.2.2] at walked
        cases step : Table.get? name entries with
        | none =>
          rw [step] at walked
          cases walked
        | some child =>
          rw [step] at walked
          have inside := (located.child step).at?
          simp only [walk, Except.ok.injEq] at walked
          rw [walked] at inside
          exact ⟨_, mem_filesIn_of_at? inside [], by simp⟩
      | cons next further =>
        rw [List.getLast?_cons_cons] at ends
        split at walked
        · exact ih located ends walked
        · split at walked
          · cases located with
            | root => exact ih .root ends walked
            | child outer _ => exact ih outer ends walked
          · cases step : Table.get? name entries with
            | none =>
              rw [step] at walked
              cases walked
            | some child =>
              rw [step] at walked
              exact ih (located.child step) ends walked

end FileTree

end Smpl
