import Mathlib.Data.List.Basic
import Smpl.Package.Loading
import Smpl.Proofs.DirectoryGrowth
import Smpl.Proofs.NormalForm

/-!
# Manifests from files

What is known of a manifest because it was loaded from a file, whatever the file holds and whatever was
drawn:

* the names of its dependencies have the standard spelling, and the paths of their sources have no
  blanks around them (`Package.Manifest.Loaded.tidy`);
* it stays the same while directories are made (`Package.Manifest.loadFrom_grown`);
* if it was found in the directory of a package, the names it declares are among those that bound a
  walk over the files (`Package.names_subset_of_loadFrom`).

The first rests on a rule for readers of records: what holds at the start, and is kept by the reader of
every field, holds of the record that is read (`Yaml.RecordType.Keeps.readText`).
-/

namespace Smpl

/-! ## What readers keep -/

namespace Yaml

variable {ε α β : Type}

/-- Whatever is read meets a condition. -/
def Reading.Ensures (m : Reading ε α) (meets : α → Prop) : Prop :=
  ∀ faults a faults', m faults = .ok (a, faults') → meets a

namespace Reading.Ensures

variable {m : Reading ε α} {meets : α → Prop}

theorem trivial (m : Reading ε α) : Ensures m fun _ => True := fun _ _ _ _ => True.intro

theorem pure {a : α} (met : meets a) : Ensures (Pure.pure a : Reading ε α) meets := by
  rintro faults b faults' ⟨⟩
  exact met

theorem throw (e : Abort ε) : Ensures (MonadExcept.throw e : Reading ε α) meets := by
  rintro faults b faults' ⟨⟩

theorem bind {next : α → Reading ε β} {later : β → Prop} (first : Ensures m meets)
    (second : ∀ a, meets a → Ensures (next a) later) : Ensures (m >>= next) later := by
  intro faults b faults' run
  cases step : m faults with
  | error e =>
    simp [Bind.bind, StateT.bind, Except.bind, step] at run
  | ok result =>
    obtain ⟨a, between⟩ := result
    simp only [Bind.bind, StateT.bind, Except.bind, step] at run
    exact second a (first faults a between step) between b faults' run

theorem foldlM {step : β → α → Reading ε β} {meets : β → Prop}
    (keeps : ∀ b a, meets b → Ensures (step b a) meets) (items : List α) {b : β} (met : meets b) :
    Ensures (items.foldlM step b) meets := by
  induction items generalizing b with
  | nil => exact pure met
  | cons a rest ih =>
    rw [List.foldlM_cons]
    exact bind (keeps b a met) fun _ => ih

end Reading.Ensures

open Reading (Ensures)

theorem Reading.ensures_stringField {meets : α → Prop} {set : String → α → α} {a : α} (d : Document)
    (n : Node) (met : meets a) (kept : ∀ s, meets (set s a)) :
    Ensures (stringField d set n a : Reading ε α) meets := by
  refine .bind (.trivial _) fun read _ => ?_
  cases read with
  | none => exact .pure met
  | some s => exact .pure (kept s)

/-- The readers of all fields keep a condition. -/
def RecordType.Keeps (r : RecordType ε α) (meets : α → Prop) : Prop :=
  ∀ name read, (name, read) ∈ r.fields → ∀ n a, meets a → Ensures (read n a) meets

namespace RecordType.Keeps

variable {r : RecordType ε α} {meets : α → Prop}

theorem lookup (keeps : r.Keeps meets) {name : String} {read : Node → α → Reading ε α}
    (found : r.fields.lookup name = some read) {n : Node} {a : α} (met : meets a) :
    Ensures (read n a) meets := by
  obtain ⟨before, after, split, _⟩ := List.lookup_eq_some_iff.mp found
  exact keeps name read (by simp [split]) n a met

theorem readEntries (keeps : r.Keeps meets) (d : Document) (entries : List (Node × Node)) :
    ∀ (seen : List String) (given : Given) {a : α}, meets a →
      Ensures (r.readEntries d seen given entries a) fun out => meets out.1 := by
  induction entries with
  | nil => exact fun seen given a met => .pure met
  | cons entry rest ih =>
    obtain ⟨key, value⟩ := entry
    intro seen given a met
    rw [RecordType.readEntries]
    split
    · exact ih seen given met
    · refine .bind (.trivial _) fun read _ => ?_
      cases read with
      | none => exact ih seen given met
      | some name =>
        dsimp only
        split
        · exact ih seen given met
        · split
          · next read found =>
            split
            · exact .bind (.trivial _) fun _ _ => ih _ _ met
            · exact .bind (keeps.lookup found met) fun a met => ih _ _ met
          · split
            · exact .bind (.trivial _) fun _ _ => ih _ _ met
            · exact ih _ _ met

theorem readMapping (keeps : r.Keeps meets) (d : Document) (fuel : Nat) :
    ∀ (given : Given) (entries : List (Node × Node)) {a : α}, meets a →
      Ensures (r.readMapping d fuel given entries a) fun out => meets out.1 := by
  -- The fuel is for mappings that merge mappings; each level is read by the same readers.
  induction fuel with
  | zero => exact fun given entries a met => .throw _
  | succ fuel ih =>
    intro given entries a met
    rw [RecordType.readMapping]
    refine .bind (.trivial _) fun fine _ => ?_
    split
    · exact .pure met
    · refine .bind (keeps.readEntries d entries [] given met) fun out met => ?_
      obtain ⟨a, given'⟩ := out
      dsimp only
      split
      · exact .pure met
      · refine .bind (.foldlM ?_ _ met) fun out met => .pure met
        intro state m met
        split
        · exact ih _ _ met
        · exact .throw _

theorem read (keeps : r.Keeps meets) (d : Document) (n : Node) {a : α} (met : meets a) :
    Ensures (r.read d n a) fun read => ∀ a, read = some a → meets a := by
  rw [RecordType.read]
  split
  · refine .bind (keeps.readMapping d _ none _ met) fun out met => .pure ?_
    rintro _ ⟨⟩
    exact met
  · refine .bind (.trivial _) fun text _ => ?_
    cases text with
    | none =>
      refine .pure ?_
      rintro _ ⟨⟩
    | some text =>
      refine .bind (.trivial _) fun _ _ => .pure ?_
      rintro _ ⟨⟩
  · refine .bind (.trivial _) fun _ _ => .pure ?_
    rintro _ ⟨⟩

end RecordType.Keeps

theorem Reading.Ensures.finish {m : Reading ε α} {meets : α → Prop} (ensures : Ensures m meets) {a : α}
    (finished : m.finish = .ok a) : meets a := by
  rw [Reading.finish] at finished
  split at finished
  · next faults run =>
    split at finished
    · cases finished
      exact ensures _ _ _ run
    · cases finished
  · cases finished
  · cases finished

theorem RecordType.Keeps.readText {r : Document → RecordType ε α} {meets : α → Prop}
    (keeps : ∀ d, (r d).Keeps meets) {text : String} {start a : α} (met : meets start)
    (read : readText r text start = .ok a) : meets a := by
  rw [RecordType.readText] at read
  split at read
  · cases read
  · cases read
  · next d _ =>
    refine Reading.Ensures.finish ?_ read
    refine .bind ((keeps d).read d d.root met) fun out out_met => .pure ?_
    cases out with
    | none => exact met
    | some b => exact out_met b rfl

end Yaml

namespace Table

variable {α : Type} {e : String × α}

theorem mem_set {name : String} {value : α} {table : Table α} (member : e ∈ set name value table) :
    e = (name, value) ∨ e ∈ table := by
  induction table with
  | nil => exact .inl (List.mem_singleton.mp member)
  | cons entry rest ih =>
    obtain ⟨key, old⟩ := entry
    rw [set] at member
    split at member
    · exact (List.mem_cons.mp member).imp_right (List.mem_cons_of_mem _)
    · split at member
      · exact List.mem_cons.mp member
      · rcases List.mem_cons.mp member with rfl | later
        · exact .inr List.mem_cons_self
        · exact (ih later).imp_right (List.mem_cons_of_mem _)

theorem mem_ofEntries {entries : List (String × α)} (member : e ∈ ofEntries entries) :
    e ∈ entries := by
  have general : ∀ (entries : List (String × α)) (table : Table α),
      e ∈ entries.foldl (fun table e => set e.1 e.2 table) table → e ∈ table ∨ e ∈ entries := by
    intro entries
    induction entries with
    | nil => exact fun table member => .inl member
    | cons first rest ih =>
      intro table member
      rcases ih _ member with early | late
      · rcases mem_set early with rfl | old
        · exact .inr List.mem_cons_self
        · exact .inl old
      · exact .inr (List.mem_cons_of_mem _ late)
  rcases general entries [] member with early | late
  · cases early
  · exact late

end Table

namespace Package

/-! ## Manifests that are loaded -/

theorem Source.trim_trim (source : Source) : source.trim.trim = source.trim := by
  simp only [Source.trim, Text.trim_trim]

theorem trim_readSource {d : Yaml.Document} {n : Yaml.Node} {source : Source}
    (read : readSource d n = .ok source) : source.trim = source := by
  rw [readSource] at read
  split at read
  · next text _ =>
    cases read
    exact Source.trim_trim { path := text }
  · cases read
  · cases finished : ((sourceType d).read d (d.follow n) {}).finish with
    | error e =>
      simp only [finished] at read
      cases read
    | ok written =>
      simp only [finished] at read
      cases read
      exact Source.trim_trim _

/-- No name is empty, and there are no blanks around names and the parts of sources. -/
def Trim (sources : List (String × Source)) : Prop :=
  ∀ e ∈ sources, e.1 ≠ "" ∧ Text.trim e.1 = e.1 ∧ e.2.trim = e.2

theorem Trim.putSource {sources : List (String × Source)} {name : String} {source : Source}
    (trim : Trim sources) (new : name ≠ "" ∧ Text.trim name = name ∧ source.trim = source) :
    Trim (putSource name source sources) := by
  induction sources with
  | nil => simpa [Package.putSource, Trim] using new
  | cons entry rest ih =>
    obtain ⟨key, old⟩ := entry
    obtain ⟨here, later⟩ := List.forall_mem_cons.mp trim
    rw [Package.putSource]
    split
    · exact List.forall_mem_cons.mpr ⟨new, later⟩
    · exact List.forall_mem_cons.mpr ⟨here, ih later⟩

theorem trim_readDependencyEntries (d : Yaml.Document) (entries : List (Yaml.Node × Yaml.Node)) :
    ∀ {sources : List (String × Source)}, Trim sources →
      (readDependencyEntries d sources entries).Ensures Trim := by
  induction entries with
  | nil => exact fun trim => .pure trim
  | cons entry rest ih =>
    obtain ⟨key, value⟩ := entry
    intro sources trim
    rw [readDependencyEntries]
    refine .bind (.trivial _) fun name _ => ?_
    cases name with
    | none => exact .pure fun _ member => absurd member List.not_mem_nil
    | some name =>
      dsimp only
      split
      · exact .throw _
      · next given =>
        split
        · exact .throw _
        · next source read =>
          exact ih (trim.putSource ⟨given, Text.trim_trim _, trim_readSource read⟩)

theorem trim_readDependencies (d : Yaml.Document) (n : Yaml.Node) :
    (readDependencies d n).Ensures Trim := by
  have nothing : Trim [] := fun _ member => absurd member List.not_mem_nil
  rw [readDependencies]
  split
  · exact trim_readDependencyEntries d _ nothing
  · split
    · split
      · exact .bind (.trivial _) fun _ _ => .pure nothing
      · exact .throw _
    · exact .throw _

theorem keeps_manifestType (d : Yaml.Document) :
    (manifestType d).Keeps fun file => Trim file.dependencies := by
  intro name read member n file trim
  simp only [manifestType, List.mem_cons, Prod.mk.injEq, List.not_mem_nil, or_false] at member
  rcases member with ⟨-, rfl⟩ | ⟨-, rfl⟩ | ⟨-, rfl⟩ | ⟨-, rfl⟩ | ⟨-, rfl⟩
  · exact Yaml.Reading.ensures_stringField d n trim fun _ => trim
  · exact Yaml.Reading.ensures_stringField d n trim fun _ => trim
  · exact Yaml.Reading.ensures_stringField d n trim fun _ => trim
  · exact .bind (.trivial _) fun _ _ => .pure trim
  · exact .bind (trim_readDependencies d n) fun _ read => .pure read

namespace Manifest

/-- The manifest of a file. -/
def Loaded (m : Manifest) : Prop := ∃ draw files path, load draw files path = .ok m

/-- The names of dependencies have the standard spelling and are not empty, and there are no blanks
around the version and the parts of sources. -/
structure Tidy (m : Manifest) : Prop where
  names : ∀ name ∈ m.dependencies.names, standardName name = name
  named : ∀ name ∈ m.dependencies.names, name ≠ ""
  sources : ∀ name source, (name, source) ∈ m.dependencies → source.trim = source
  version : Text.trim m.version = m.version

theorem Tidy.paths {m : Manifest} (tidy : m.Tidy) (name : String) (source : Source)
    (declared : (name, source) ∈ m.dependencies) : Text.trim source.path = source.path :=
  congrArg Source.path (tidy.sources name source declared)

section Load

variable {draw : Drawing} {files grown : FileTree} {cwd path text : String} {m : Manifest}

theorem ofText_ok (read : ofText draw path text = .ok m) :
    ∃ file, Yaml.RecordType.readText manifestType text {} = .ok file ∧
      m = (file.drawn draw).toManifest path ∧ m.issues = [] := by
  rw [ofText] at read
  split at read
  · cases read
  · cases read
  · next file readFile =>
    dsimp only at read
    split at read
    · next valid =>
      cases read
      exact ⟨file, readFile, rfl, valid⟩
    · cases read

theorem load_ok (loaded : load draw files path = .ok m) :
    ∃ contents text, files.openAt path = .ok (.file contents) ∧
      String.fromUTF8? contents = some text ∧ ofText draw path text = .ok m := by
  rw [load] at loaded
  split at loaded
  · cases loaded
  · cases loaded
  · next contents opened =>
    split at loaded
    · cases loaded
    · next text decoded => exact ⟨contents, text, opened, decoded, loaded⟩

theorem Loaded.tidy (loaded : m.Loaded) : m.Tidy := by
  obtain ⟨draw, files, path, loaded⟩ := loaded
  obtain ⟨contents, text, -, -, read⟩ := load_ok loaded
  obtain ⟨file, readFile, rfl, -⟩ := ofText_ok read
  have trim : Trim (file.drawn draw).dependencies := fun e member =>
    Yaml.RecordType.Keeps.readText keeps_manifestType
      (fun _ member => absurd member List.not_mem_nil) readFile e ((draw.perm _).mem_iff.mp member)
  refine ⟨?_, ?_, ?_, Text.trim_trim _⟩
  · intro name declared
    obtain ⟨e, member, rfl⟩ := List.mem_map.mp declared
    obtain ⟨written, _, rfl⟩ := List.mem_map.mp (Table.mem_ofEntries member)
    exact standardName_standardName _
  · intro name declared
    obtain ⟨e, member, rfl⟩ := List.mem_map.mp declared
    obtain ⟨written, here, rfl⟩ := List.mem_map.mp (Table.mem_ofEntries member)
    obtain ⟨given, trimmed, _⟩ := trim written here
    exact standardName_ne_empty (by rwa [trimmed])
  · intro name source member
    obtain ⟨written, here, same⟩ := List.mem_map.mp (Table.mem_ofEntries member)
    cases same
    exact (trim written here).2.2

/-- Every source of a manifest that is loaded is at a local path or in a repository. -/
theorem Loaded.located (loaded : m.Loaded) {name : String} {source : Source}
    (declared : (name, source) ∈ m.dependencies) : source.path ≠ "" ∨ source.git ≠ "" := by
  obtain ⟨draw, files, path, loaded⟩ := loaded
  obtain ⟨contents, text, -, -, read⟩ := load_ok loaded
  obtain ⟨file, -, -, valid⟩ := ofText_ok read
  have fine : dependencyIssues m.dependencies = [] := (List.append_eq_nil_iff.mp valid).2
  rw [dependencyIssues, ← List.isEmpty_iff, (List.mergeSort_perm _ _).isEmpty_eq, List.isEmpty_iff,
    List.flatMap_eq_nil_iff] at fine
  have none := List.map_eq_nil_iff.mp (fine (name, source) declared)
  simp only [Source.issues, List.append_eq_nil_iff] at none
  by_contra neither
  obtain ⟨path, git⟩ := not_or.mp neither
  have missing := none.1.1.2
  rw [if_pos ⟨not_not.mp path, not_not.mp git⟩] at missing
  cases missing

theorem loadFrom_ok (loaded : loadFrom draw files cwd path = .ok m) :
    load draw files (Path.absolute cwd path) = .ok m := by
  rw [loadFrom] at loaded
  split at loaded
  · cases loaded
  · exact loaded

theorem loaded_of_loadFrom (loaded : loadFrom draw files cwd path = .ok m) : m.Loaded :=
  ⟨draw, files, _, loadFrom_ok loaded⟩

/-- The file of a manifest that can be loaded is there for good, whatever is drawn of it. -/
theorem loadFrom_eq_grown (later : FileTree.Grown files grown)
    (loaded : loadFrom draw files cwd path = .ok m) (draw' : Drawing) :
    loadFrom draw' grown cwd path = loadFrom draw' files cwd path := by
  obtain ⟨contents, text, opened, decoded, -⟩ := load_ok (loadFrom_ok loaded)
  rw [loadFrom, loadFrom]
  split
  · rfl
  · rw [load, load, opened, FileTree.openAt_grown later opened]

theorem loadFrom_grown (later : FileTree.Grown files grown)
    (loaded : loadFrom draw files cwd path = .ok m) : loadFrom draw grown cwd path = .ok m :=
  (loadFrom_eq_grown later loaded draw).trans loaded

end Load

end Manifest

end Package

/-! ## The last name of a path -/

namespace Path

theorem names_ne_nil (path : List Char) : names path ≠ [] := by
  fun_cases names path <;> simp

theorem names_append (before after : List Char) :
    names (before ++ '/' :: after) = names before ++ names after := by
  induction before with
  | nil => simp [names]
  | cons c rest ih =>
    rw [List.cons_append, names, names]
    split
    · rw [ih, List.cons_append]
    · obtain ⟨first, more, split⟩ := List.exists_cons_of_ne_nil (names_ne_nil rest)
      rw [ih, split, List.cons_append, List.cons_append]

theorem slash_not_mem_names (path : List Char) : ∀ name ∈ names path, '/' ∉ name := by
  induction path with
  | nil => simp [names]
  | cons c rest ih =>
    rw [names]
    split
    · exact List.forall_mem_cons.mpr ⟨List.not_mem_nil, ih⟩
    · next other =>
      obtain ⟨first, more, split⟩ := List.exists_cons_of_ne_nil (names_ne_nil rest)
      rw [split] at ih ⊢
      obtain ⟨here, later⟩ := List.forall_mem_cons.mp ih
      refine List.forall_mem_cons.mpr ⟨?_, later⟩
      rintro (_ | ⟨_, member⟩)
      · exact other rfl
      · exact here member

theorem names_eq_singleton {name : List Char} (plain : '/' ∉ name) : names name = [name] := by
  induction name with
  | nil => rfl
  | cons c rest ih =>
    rw [List.mem_cons, not_or] at plain
    rw [names, if_neg (Ne.symm plain.1), ih plain.2]

theorem names_joinNames {shortest : List (List Char)} (some : shortest ≠ [])
    (plain : ∀ name ∈ shortest, '/' ∉ name) : names (joinNames shortest) = shortest := by
  induction shortest with
  | nil => exact absurd rfl some
  | cons first rest ih =>
    obtain ⟨here, later⟩ := List.forall_mem_cons.mp plain
    cases rest with
    | nil => exact names_eq_singleton here
    | cons next more =>
      rw [joinNames, names_append, names_eq_singleton here, ih (List.cons_ne_nil _ _) later]
      · rfl
      · exact List.cons_ne_nil _ _

theorem mem_follow {absolute : Bool} {walked : List (List Char)} {name next : List Char}
    (member : name ∈ follow absolute walked next) : name ∈ walked ∨ name = next := by
  unfold follow at member
  split at member
  · exact .inl member
  · split at member
    · cases walked with
      | nil =>
        cases absolute with
        | true => cases member
        | false => exact .inr (List.mem_singleton.mp member)
      | cons last before =>
        dsimp only at member
        split at member
        · exact (List.mem_cons.mp member).symm
        · exact .inl (List.mem_cons_of_mem _ member)
    · exact (List.mem_cons.mp member).symm

theorem mem_foldl_follow {absolute : Bool} {rest walked : List (List Char)} {name : List Char}
    (member : name ∈ rest.foldl (follow absolute) walked) : name ∈ walked ∨ name ∈ rest := by
  induction rest generalizing walked with
  | nil => exact .inl member
  | cons first rest ih =>
    rcases ih member with early | late
    · rcases mem_follow early with old | rfl
      · exact .inl old
      · exact .inr List.mem_cons_self
    · exact .inr (List.mem_cons_of_mem _ late)

theorem mem_cleanNames {path : String} {name : List Char} (member : name ∈ cleanNames path) :
    name ∈ names path.toList := by
  rcases mem_foldl_follow (List.mem_reverse.mp member) with early | late
  · cases early
  · exact late

/-- The last name of a path, which is no dots. -/
structure EndsIn (path : String) (name : List Char) : Prop where
  last : (names path.toList).getLast? = some name
  proper : name ≠ [] ∧ name ≠ ['.'] ∧ name ≠ ['.', '.']

namespace EndsIn

variable {path : String} {name : List Char}

theorem cleanNames (ends : EndsIn path name) : (Path.cleanNames path).getLast? = some name := by
  -- The last name is followed last, and is no dots that would be dropped or take a name away.
  obtain ⟨before, split⟩ := List.getLast?_eq_some_iff.mp ends.last
  rw [Path.cleanNames, split, List.foldl_append, List.foldl_cons, List.foldl_nil,
    follow.eq_def, if_neg (not_or.mpr ⟨ends.proper.1, ends.proper.2.1⟩), if_neg ends.proper.2.2,
    List.reverse_cons, List.getLast?_concat]

theorem clean (ends : EndsIn path name) : EndsIn (Path.clean path) name := by
  refine ⟨?_, ends.proper⟩
  have last := ends.cleanNames
  have some : Path.cleanNames path ≠ [] := by
    intro nothing
    rw [nothing] at last
    cases last
  have read : names (joinNames (Path.cleanNames path)) = Path.cleanNames path :=
    names_joinNames some fun _ member => slash_not_mem_names _ _ (mem_cleanNames member)
  rw [Path.clean, ofNames]
  split
  · obtain ⟨first, more, split⟩ := List.exists_cons_of_ne_nil some
    rw [String.toList_ofList, names, if_pos rfl, read, split, List.getLast?_cons_cons, ← split, last]
  · rw [List.isEmpty_eq_false_iff.mpr some, if_neg Bool.false_ne_true, String.toList_ofList, read, last]

theorem join (ends : EndsIn path name) (dir : String) : EndsIn (Path.join [dir, path]) name := by
  have given : path ≠ "" := by
    rintro rfl
    have last := ends.last
    simp [names] at last
    exact ends.proper.1 last
  rw [Path.join]
  by_cases here : dir = ""
  · rw [List.dropWhile_cons_of_pos (by simp [here]), List.dropWhile_cons_of_neg (by simp [given])]
    exact ends.clean
  · rw [List.dropWhile_cons_of_neg (by simp [here])]
    refine clean ⟨?_, ends.proper⟩
    have text : ("/".intercalate [dir, path]).toList = dir.toList ++ '/' :: path.toList := by
      rw [show "/".intercalate [dir, path] = dir ++ "/" ++ path from rfl]
      simp
    rw [text, names_append, List.getLast?_append, ends.last]
    rfl

theorem absolute (ends : EndsIn path name) (cwd : String) : EndsIn (Path.absolute cwd path) name := by
  rw [Path.absolute]
  split
  · exact ends.clean
  · exact ends.join cwd

end EndsIn

end Path

/-! ## The names of all manifests -/

namespace Package

/-- The names that a manifest and the manifest files of a file tree declare. -/
def declaredNames (files : FileTree) (m : Manifest) : List String :=
  m.dependencies.names ++
    (manifestFilesIn files).flatMap fun f => f.dependencies.map fun e => standardName e.1

theorem nameBound_eq (files : FileTree) (m : Manifest) :
    nameBound files m = (declaredNames files m).length + 1 := by
  have general : ∀ (manifests : List ManifestFile) (n : Nat),
      manifests.foldl (fun n f => n + f.dependencies.length) n =
        n + (manifests.flatMap fun f => f.dependencies.map fun e => standardName e.1).length := by
    intro manifests
    induction manifests with
    | nil => simp
    | cons first rest ih =>
      intro n
      rw [List.foldl_cons, ih, List.flatMap_cons, List.length_append, List.length_map, Nat.add_assoc]
  rw [nameBound, general, declaredNames, List.length_append, Table.names, List.length_map]
  omega

theorem declaredNames_grown {files grown : FileTree} (later : FileTree.Grown files grown)
    (m : Manifest) : declaredNames grown m = declaredNames files m := by
  rw [declaredNames, manifestFilesIn, later.files_eq, declaredNames, manifestFilesIn]

theorem names_subset_declaredNames (files : FileTree) (m : Manifest) :
    m.dependencies.names ⊆ declaredNames files m :=
  List.subset_append_left _ _

theorem mem_manifestFilesIn {files : FileTree} {names : List String} {contents : ByteArray}
    {text : String} {file : ManifestFile} (member : (names, contents) ∈ files.files fun _ => false)
    (last : names.getLast? = some manifestName) (decoded : String.fromUTF8? contents = some text)
    (read : Yaml.RecordType.readText manifestType text {} = .ok file) :
    file ∈ manifestFilesIn files := by
  refine List.mem_filterMap.mpr ⟨_, member, ?_⟩
  simp only [last, if_true, decoded, Option.bind_some, read]
  rfl

theorem names_subset_of_loadFrom {draw : Drawing} {files : FileTree} {cwd dir : String} {m : Manifest}
    (loaded : Manifest.loadFrom draw files cwd (Path.join [dir, manifestName]) = .ok m)
    (root : Manifest) : m.dependencies.names ⊆ declaredNames files root := by
  obtain ⟨contents, text, opened, decoded, read⟩ := Manifest.load_ok (Manifest.loadFrom_ok loaded)
  have ends : Path.EndsIn manifestName manifestName.toList := ⟨by decide, by decide⟩
  have last : (FileTree.pathNames (Path.absolute cwd (Path.join [dir, manifestName]))).getLast? =
      some manifestName := by
    rw [FileTree.pathNames, List.getLast?_map, ((ends.join dir).absolute cwd).last, Option.map_some,
      String.ofList_toList]
  obtain ⟨names, member, last'⟩ : ∃ names, (names, contents) ∈ files.files (fun _ => false) ∧
      names.getLast? = some manifestName := by
    refine FileTree.mem_files_of_walk ⟨by decide, by decide, by decide⟩ .root last ?_
    rw [FileTree.openAt, FileTree.get] at opened
    cases walked : FileTree.walk [] files (FileTree.pathNames _) with
    | error fault =>
      rw [walked] at opened
      cases opened
    | ok tree =>
      rw [walked] at opened
      cases opened
      rfl
  obtain ⟨file, readFile, rfl, -⟩ := Manifest.ofText_ok read
  -- Whatever is drawn, the names are spellings of keys that are written in the file.
  intro name declared
  obtain ⟨e, inside, rfl⟩ := List.mem_map.mp declared
  obtain ⟨written, here, rfl⟩ := List.mem_map.mp (Table.mem_ofEntries inside)
  refine List.mem_append_right _ (List.mem_flatMap.mpr
    ⟨file, mem_manifestFilesIn member last' decoded readFile, ?_⟩)
  exact List.mem_map.mpr ⟨written, (draw.perm _).mem_iff.mp here, rfl⟩

/-! ## Packages in a tree -/

/-- A directory that holds a manifest and nothing else. -/
def packageDirectory (manifest : String) : FileTree :=
  .directory [(manifestName, .file manifest.toUTF8)]

theorem eq_ok_of_toOption {ε α : Type} {outcome : Except ε α} {a : α}
    (some_a : outcome.toOption = some a) : outcome = .ok a := by
  cases outcome with
  | error e => cases some_a
  | ok b =>
    cases some_a
    rfl

end Package

end Smpl
