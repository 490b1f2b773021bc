import Smpl.Proofs.Decoding
import Smpl.Proofs.Installation

/-!
# The names of dependencies

A manifest maps keys to the sources of dependencies. Reading it goes in two steps.

* The mapping is read entry by entry. A key, without the blanks around it, has the source of its last
  entry (`Package.mem_readDependencies_iff`).
* The keys are then given their standard spelling. They are gone through in no particular order, and
  of several keys of one spelling the one that comes last counts.

So a dependency is lost if two keys have one spelling, and which one that is depends on the order.
Every key has its dependency, the same one in every order, if and only if no two keys have one
spelling (`Package.Apart`). The order alone does not matter if and only if keys of one spelling have
one source (`Package.Alike`). A manifest file with such keys is then the same manifest whatever is
drawn (`Package.sameRead_of_alike`).

Main result: `Package.dependencies_kept_iff`. A mapping that loses a dependency:
`Package.respelledText`.
-/

namespace Smpl

/-! ## Last entries -/

namespace Json

variable {α : Type} {name : String} {entries : List (String × α)} {a : α}

theorem lastOf?_concat (entries : List (String × α)) (e : String × α) (name : String) :
    lastOf? name (entries ++ [e]) = if e.1 = name then some e.2 else lastOf? name entries := by
  induction entries with
  | nil => rfl
  | cons first rest ih =>
    rw [List.cons_append, lastOf?_cons, ih, lastOf?_cons]
    split <;> rfl

theorem exists_lastOf? (member : (name, a) ∈ entries) : ∃ b, lastOf? name entries = some b := by
  induction entries with
  | nil => cases member
  | cons first rest ih =>
    rw [lastOf?_cons]
    rcases List.mem_cons.mp member with rfl | later
    · cases lastOf? name rest with
      | none => exact ⟨a, by simp⟩
      | some b => exact ⟨b, rfl⟩
    · obtain ⟨b, found⟩ := ih later
      exact ⟨b, by rw [found, Option.some_or]⟩

/-- Where entries of one name have one value, any entry of the name is as good as the last one. -/
theorem lastOf?_eq_some_iff (alike : ∀ e ∈ entries, ∀ f ∈ entries, e.1 = f.1 → e.2 = f.2) :
    lastOf? name entries = some a ↔ (name, a) ∈ entries := by
  refine ⟨mem_of_lastOf?, fun member => ?_⟩
  obtain ⟨b, found⟩ := exists_lastOf? member
  obtain rfl : b = a := alike (name, b) (mem_of_lastOf? found) (name, a) member rfl
  exact found

end Json

/-! ## Tables -/

namespace Table

variable {α : Type} {name : String} {value : α} {table : Table α}

/-- The names are in order, and none stands twice. -/
def Sorted (table : Table α) : Prop := table.Pairwise fun e f => e.1 < f.1

theorem Sorted.set (sorted : Sorted table) (name : String) (value : α) :
    Sorted (set name value table) := by
  induction table with
  | nil => exact List.pairwise_singleton _ _
  | cons entry rest ih =>
    obtain ⟨key, old⟩ := entry
    obtain ⟨first, later⟩ := List.pairwise_cons.mp sorted
    rw [Table.set]
    split
    · next here =>
      subst here
      exact List.pairwise_cons.mpr ⟨first, later⟩
    · next apart =>
      split
      · next before =>
        refine List.pairwise_cons.mpr ⟨?_, sorted⟩
        exact List.forall_mem_cons.mpr
          ⟨before, fun e member => String.lt_trans before (first e member)⟩
      · next after =>
        have between : key < name :=
          String.not_le.mp fun le => apart (String.le_antisymm (String.not_lt.mp after) le)
        refine List.pairwise_cons.mpr ⟨fun e member => ?_, ih later⟩
        rcases mem_set member with rfl | old
        · exact between
        · exact first e old

theorem sorted_ofEntries (entries : List (String × α)) : Sorted (ofEntries entries) := by
  have general : ∀ (entries : List (String × α)) (table : Table α), Sorted table →
      Sorted (entries.foldl (fun table e => set e.1 e.2 table) table) := by
    intro entries
    induction entries with
    | nil => exact fun table sorted => sorted
    | cons first rest ih => exact fun table sorted => ih _ (sorted.set first.1 first.2)
  exact general entries [] List.Pairwise.nil

theorem Sorted.nodup_names (sorted : Sorted table) : table.names.Nodup := by
  refine List.pairwise_map.mpr (sorted.imp fun before same => ?_)
  rw [same] at before
  exact String.lt_irrefl _ before

theorem mem_of_get? (found : get? name table = some value) : (name, value) ∈ table := by
  induction table with
  | nil => cases found
  | cons entry rest ih =>
    rw [get?] at found
    split at found
    · next here =>
      cases found
      rw [← here]
      exact List.mem_cons_self
    · exact List.mem_cons_of_mem _ (ih found)

theorem Sorted.mem_iff (sorted : Sorted table) :
    (name, value) ∈ table ↔ get? name table = some value := by
  refine ⟨fun member => ?_, mem_of_get?⟩
  induction table with
  | nil => cases member
  | cons entry rest ih =>
    obtain ⟨first, later⟩ := List.pairwise_cons.mp sorted
    rw [get?]
    rcases List.mem_cons.mp member with rfl | further
    · exact if_pos rfl
    · rw [if_neg, ih later further]
      intro same
      have before := first _ further
      rw [same] at before
      exact String.lt_irrefl _ before

/-- Tables that have the same entries under all names are the same. -/
theorem Sorted.ext {a b : Table α} (sortedA : Sorted a) (sortedB : Sorted b)
    (same : ∀ name, get? name a = get? name b) : a = b := by
  have perm : a.Perm b := by
    refine (List.perm_ext_iff_of_nodup sortedA.nodup_names.of_map sortedB.nodup_names.of_map).mpr ?_
    rintro ⟨name, value⟩
    rw [sortedA.mem_iff, sortedB.mem_iff, same]
  exact perm.eq_of_pairwise
    (fun _ _ _ _ before after => absurd (String.lt_trans before after) (String.lt_irrefl _))
    sortedA sortedB

theorem get?_ofEntries (entries : List (String × α)) (name : String) :
    get? name (ofEntries entries) = Json.lastOf? name entries := by
  have general : ∀ (entries : List (String × α)) (table : Table α),
      get? name (entries.foldl (fun table e => set e.1 e.2 table) table) =
        (Json.lastOf? name entries).or (get? name table) := by
    intro entries
    induction entries with
    | nil => exact fun table => rfl
    | cons first rest ih =>
      intro table
      rw [List.foldl_cons, ih, Json.lastOf?_cons, Option.or_assoc]
      by_cases here : first.1 = name
      · rw [if_pos here, ← here, get?_set_self, Option.some_or]
      · rw [if_neg here, get?_set_other (Ne.symm here), Option.none_or]
  rw [ofEntries, general]
  exact Option.or_none

theorem mem_ofEntries_iff {entries : List (String × α)} :
    (name, value) ∈ ofEntries entries ↔ Json.lastOf? name entries = some value := by
  rw [(sorted_ofEntries entries).mem_iff, get?_ofEntries]

theorem mem_names_ofEntries {entries : List (String × α)} :
    name ∈ (ofEntries entries).names ↔ name ∈ entries.map Prod.fst := by
  constructor
  · intro member
    obtain ⟨e, inside, rfl⟩ := List.mem_map.mp member
    exact List.mem_map_of_mem (mem_ofEntries inside)
  · intro member
    obtain ⟨e, inside, rfl⟩ := List.mem_map.mp member
    obtain ⟨value, found⟩ := Json.exists_lastOf? inside
    exact List.mem_map.mpr ⟨(e.1, value), mem_ofEntries_iff.mpr found, rfl⟩

end Table

/-! ## Reading without faults -/

namespace Yaml.Reading

variable {ε α β : Type} {m : Reading ε α}

theorem finish_eq_ok {a : α} : m.finish = .ok a ↔ m #[] = .ok (a, #[]) := by
  rw [finish]
  constructor
  · intro finished
    split at finished
    · next b faults run =>
      split at finished
      · next none =>
        cases finished
        rw [Array.isEmpty_iff.mp none] at run
        exact run
      · cases finished
    · cases finished
    · cases finished
  · intro run
    have run : m.run #[] = .ok (a, #[]) := run
    simp [run]

theorem bind_eq_ok {next : α → Reading ε β} {faults after : Array TypeFault} {b : β}
    (run : (m >>= next) faults = .ok (b, after)) :
    ∃ a between, m faults = .ok (a, between) ∧ next a between = .ok (b, after) := by
  cases step : m faults with
  | error e => simp [Bind.bind, StateT.bind, Except.bind, step] at run
  | ok result =>
    obtain ⟨a, between⟩ := result
    simp only [Bind.bind, StateT.bind, Except.bind, step] at run
    exact ⟨a, between, rfl, run⟩

theorem apart_run (m : Reading ε α) (faults : Array TypeFault) :
    m.apart faults =
      match m #[] with
      | .ok (a, own) => .ok (if own.isEmpty then some a else none, faults ++ own)
      | .error e => .error e := by
  rw [apart, StateT.run]
  cases m #[] <;> rfl

/-- What is read on its own is there if it has no faults; else the faults are passed on. -/
theorem apart_eq_ok {faults after : Array TypeFault} {read : Option α}
    (run : m.apart faults = .ok (read, after)) :
    (∃ a, m.finish = .ok a ∧ read = some a ∧ after = faults) ∨ (read = none ∧ after ≠ #[]) := by
  rw [apart_run] at run
  split at run
  · next a own alone =>
    cases run
    by_cases fine : own.isEmpty
    · obtain rfl := Array.isEmpty_iff.mp fine
      exact .inl ⟨a, finish_eq_ok.mpr alone, by simp, by simp⟩
    · refine .inr ⟨if_neg fine, fun none => fine ?_⟩
      exact Array.isEmpty_iff.mpr (Array.append_eq_empty_iff.mp none).2
  · cases run

end Yaml.Reading

/-! ## The entries of a mapping -/

namespace Package

theorem mem_putSource_iff {sources : List (String × Source)}
    (nodup : (sources.map Prod.fst).Nodup) {name : String} {source : Source}
    {e : String × Source} :
    e ∈ putSource name source sources ↔ e = (name, source) ∨ (e.1 ≠ name ∧ e ∈ sources) := by
  induction sources with
  | nil => simp [putSource]
  | cons entry rest ih =>
    obtain ⟨key, old⟩ := entry
    obtain ⟨absent, nodup⟩ := List.nodup_cons.mp nodup
    rw [putSource]
    split
    · next here =>
      subst here
      rw [List.mem_cons, List.mem_cons]
      refine or_congr_right ⟨fun later => ⟨?_, .inr later⟩, ?_⟩
      · exact fun same => absent (List.mem_map.mpr ⟨e, later, same⟩)
      · rintro ⟨other, rfl | later⟩
        · exact absurd rfl other
        · exact later
    · next apart =>
      rw [List.mem_cons, List.mem_cons, ih nodup]
      constructor
      · rintro (rfl | rfl | ⟨other, later⟩)
        · exact .inr ⟨apart, .inl rfl⟩
        · exact .inl rfl
        · exact .inr ⟨other, .inr later⟩
      · rintro (rfl | ⟨other, rfl | later⟩)
        · exact .inr (.inl rfl)
        · exact .inl rfl
        · exact .inr (.inr ⟨other, later⟩)

theorem nodup_putSource {sources : List (String × Source)}
    (nodup : (sources.map Prod.fst).Nodup) (name : String) (source : Source) :
    ((putSource name source sources).map Prod.fst).Nodup := by
  induction sources with
  | nil => exact List.nodup_singleton _
  | cons entry rest ih =>
    obtain ⟨key, old⟩ := entry
    obtain ⟨absent, later⟩ := List.nodup_cons.mp nodup
    rw [putSource]
    split
    · next here => exact here ▸ nodup
    · next apart =>
      refine List.nodup_cons.mpr ⟨fun member => ?_, ih later⟩
      obtain ⟨e, inside, same⟩ := List.mem_map.mp member
      rcases (mem_putSource_iff later).mp inside with rfl | ⟨_, old⟩
      · exact apart same.symm
      · exact absent (same ▸ List.mem_map_of_mem old)

/-- Sets the sources of names, one after the other. -/
def putSources (sources declared : List (String × Source)) : List (String × Source) :=
  declared.foldl (fun sources e => putSource e.1 e.2 sources) sources

/-- Each name has the source that is set last. -/
theorem putSources_nil (declared : List (String × Source)) :
    ((putSources [] declared).map Prod.fst).Nodup ∧ ∀ name source,
      (name, source) ∈ putSources [] declared ↔ Json.lastOf? name declared = some source := by
  induction declared using List.reverseRecOn with
  | nil => exact ⟨List.nodup_nil, fun name source => by simp [putSources, Json.lastOf?]⟩
  | append_singleton before e ih =>
    obtain ⟨nodup, members⟩ := ih
    have step : putSources [] (before ++ [e]) = putSource e.1 e.2 (putSources [] before) := by
      rw [putSources, List.foldl_append]
      rfl
    rw [step]
    refine ⟨nodup_putSource nodup _ _, fun name source => ?_⟩
    rw [mem_putSource_iff nodup, members, Json.lastOf?_concat]
    by_cases here : e.1 = name
    · subst here
      rw [if_pos rfl]
      constructor
      · rintro (same | ⟨other, _⟩)
        · exact congrArg some (congrArg Prod.snd same).symm
        · exact absurd rfl other
      · exact fun same => .inl (Option.some.inj same ▸ rfl)
    · rw [if_neg here]
      constructor
      · rintro (same | ⟨_, found⟩)
        · exact absurd (congrArg Prod.fst same).symm here
        · exact found
      · exact fun found => .inr ⟨Ne.symm here, found⟩

/-- An entry of a mapping that declares a source under a key, which is taken without the blanks around
it. -/
structure Declares (d : Yaml.Document) (entry : Yaml.Node × Yaml.Node) (declared : String × Source) :
    Prop where
  key : ∃ text, (Yaml.Reading.string d entry.1 : Yaml.Reading Refusal _).finish = .ok text ∧
    Text.trim (text.getD "") = declared.1
  source : readSource d entry.2 = .ok declared.2

theorem declares_of_readDependencyEntries {d : Yaml.Document} {entries : List (Yaml.Node × Yaml.Node)} :
    ∀ {sources read : List (String × Source)} {faults : Array Yaml.TypeFault},
      readDependencyEntries d sources entries faults = .ok (read, #[]) →
      ∃ declared, List.Forall₂ (Declares d) entries declared ∧ read = putSources sources declared := by
  induction entries with
  | nil =>
    intro sources read faults run
    cases run
    exact ⟨[], .nil, rfl⟩
  | cons entry rest ih =>
    intro sources read faults run
    obtain ⟨key, value⟩ := entry
    rw [readDependencyEntries] at run
    obtain ⟨name, between, named, next⟩ := Yaml.Reading.bind_eq_ok run
    clear run
    rcases Yaml.Reading.apart_eq_ok named with ⟨text, finished, rfl, rfl⟩ | ⟨rfl, faulty⟩
    · dsimp only at next
      split at next
      · cases next
      · cases given : readSource d value with
        | error cause =>
          simp only [given] at next
          cases next
        | ok source =>
          simp only [given] at next
          obtain ⟨declared, each, rfl⟩ := ih next
          exact ⟨(Text.trim (text.getD ""), source) :: declared,
            .cons ⟨⟨text, finished, rfl⟩, given⟩ each, rfl⟩
    -- A key that is no text is a fault, and faults stay.
    · cases next
      exact absurd rfl faulty

/-- The entries of a mapping. What is no mapping has none. -/
def entriesOf (d : Yaml.Document) (n : Yaml.Node) : List (Yaml.Node × Yaml.Node) :=
  match d.follow n with
  | .mapping _ _ entries => entries
  | _ => []

theorem readDependencies_run {d : Yaml.Document} {n : Yaml.Node} {sources : List (String × Source)}
    (run : readDependencies d n #[] = .ok (sources, #[])) :
    ∃ declared, List.Forall₂ (Declares d) (entriesOf d n) declared ∧ sources = putSources [] declared := by
  rw [readDependencies] at run
  rw [entriesOf]
  cases shape : d.follow n with
  | mapping line tag entries =>
    rw [shape] at run
    exact declares_of_readDependencyEntries run
  | scalar line tag text =>
    rw [shape] at run
    dsimp only at run
    -- Besides mappings, nulls are accepted.
    split at run
    · obtain ⟨_, _, _, next⟩ := Yaml.Reading.bind_eq_ok run
      cases next
      exact ⟨[], .nil, rfl⟩
    · cases run
  | sequence line tag items =>
    rw [shape] at run
    cases run
  | «alias» line name target =>
    rw [shape] at run
    cases run

/-- Each key that is read has the source of its last entry in the mapping. -/
theorem mem_readDependencies_iff {d : Yaml.Document} {n : Yaml.Node} {sources : List (String × Source)}
    (accepted : (readDependencies d n).finish = .ok sources) :
    ∃ declared, List.Forall₂ (Declares d) (entriesOf d n) declared ∧
      (sources.map Prod.fst).Nodup ∧
      ∀ key source, (key, source) ∈ sources ↔ Json.lastOf? key declared = some source := by
  obtain ⟨declared, each, rfl⟩ := readDependencies_run (Yaml.Reading.finish_eq_ok.mp accepted)
  exact ⟨declared, each, putSources_nil declared⟩

/-! ## The standard spelling -/

/-- No two keys have one spelling. -/
def Apart (sources : List (String × Source)) : Prop :=
  (sources.map fun e => standardName e.1).Nodup

/-- Keys of one spelling have one source. -/
def Alike (sources : List (String × Source)) : Prop :=
  ∀ e ∈ sources, ∀ f ∈ sources, standardName e.1 = standardName f.1 → e.2 = f.2

instance (sources : List (String × Source)) : Decidable (Apart sources) :=
  inferInstanceAs (Decidable (List.Nodup _))

instance (sources : List (String × Source)) : Decidable (Alike sources) :=
  inferInstanceAs (Decidable (∀ e ∈ sources, ∀ f ∈ sources, _ → _))

/-- The table has one dependency for each key, which is its source under its standard spelling. -/
structure Intact (sources : List (String × Source)) (table : Table Source) : Prop where
  count : table.length = sources.length
  served : ∀ e ∈ sources, Table.get? (standardName e.1) table = some e.2

/-- The table has one dependency for each spelling of a key, and a source of one of the keys that have
the spelling. -/
structure Drawn (sources : List (String × Source)) (table : Table Source) : Prop where
  nodup : table.names.Nodup
  names : ∀ name, name ∈ table.names ↔ ∃ e ∈ sources, standardName e.1 = name
  source : ∀ e ∈ table, ∃ f ∈ sources, standardName f.1 = e.1 ∧ f.2 = e.2

section Orders

variable {sources order : List (String × Source)}

theorem Apart.alike (apart : Apart sources) : Alike sources := fun _ inE _ inF same =>
  congrArg Prod.snd (List.inj_on_of_nodup_map apart inE inF same)

theorem drawn_dependencyTable (perm : order.Perm sources) : Drawn sources (dependencyTable order) where
  nodup := (Table.sorted_ofEntries _).nodup_names
  names name := by
    rw [dependencyTable, Table.mem_names_ofEntries, List.map_map, List.mem_map]
    exact exists_congr fun e => and_congr_left' perm.mem_iff
  source e member := by
    obtain ⟨f, inside, rfl⟩ := List.mem_map.mp (Table.mem_ofEntries member)
    exact ⟨f, perm.mem_iff.mp inside, rfl, rfl⟩

theorem get?_dependencyTable (alike : Alike sources) (perm : order.Perm sources) {name : String}
    {source : Source} :
    Table.get? name (dependencyTable order) = some source ↔
      ∃ e ∈ sources, standardName e.1 = name ∧ e.2 = source := by
  rw [dependencyTable, Table.get?_ofEntries, Json.lastOf?_eq_some_iff, List.mem_map]
  · refine exists_congr fun e => ?_
    rw [perm.mem_iff, Prod.mk.injEq]
  · intro a inA b inB same
    obtain ⟨e, inE, rfl⟩ := List.mem_map.mp inA
    obtain ⟨f, inF, rfl⟩ := List.mem_map.mp inB
    exact alike e (perm.mem_iff.mp inE) f (perm.mem_iff.mp inF) same

theorem dependencyTable_eq (alike : Alike sources) (perm : order.Perm sources) :
    dependencyTable order = dependencyTable sources := by
  refine (Table.sorted_ofEntries _).ext (Table.sorted_ofEntries _) fun name => ?_
  ext source
  exact (get?_dependencyTable alike perm).trans (get?_dependencyTable alike (.refl _)).symm

/-- Any key can come last, and then its source counts. -/
theorem exists_order_last {e : String × Source} (member : e ∈ sources) :
    ∃ order, order.Perm sources ∧
      Table.get? (standardName e.1) (dependencyTable order) = some e.2 := by
  refine ⟨sources.erase e ++ [e],
    List.perm_append_comm.trans (List.perm_cons_erase member).symm, ?_⟩
  rw [dependencyTable, Table.get?_ofEntries, List.map_append]
  exact (Json.lastOf?_concat _ _ _).trans (if_pos rfl)

theorem alike_iff :
    (∀ order, order.Perm sources → dependencyTable order = dependencyTable sources) ↔
      Alike sources := by
  refine ⟨fun same e inE f inF spelled => ?_, fun alike _ => dependencyTable_eq alike⟩
  obtain ⟨first, permE, lastE⟩ := exists_order_last inE
  obtain ⟨second, permF, lastF⟩ := exists_order_last inF
  rw [same first permE, spelled] at lastE
  rw [same second permF] at lastF
  exact Option.some.inj (lastE.symm.trans lastF)

theorem length_dependencyTable_iff :
    (dependencyTable sources).length = sources.length ↔ Apart sources := by
  constructor
  · intro count
    -- The names of the table are among the spellings, and there are as many of them.
    have among : (dependencyTable sources).names ⊆ sources.map fun e => standardName e.1 := by
      intro name member
      obtain ⟨e, inside, rfl⟩ := ((drawn_dependencyTable (.refl sources)).names name).mp member
      exact List.mem_map_of_mem inside
    have nodup := (drawn_dependencyTable (.refl sources)).nodup
    have all := (List.subperm_of_subset nodup among).perm_of_length_le
      (by rw [List.length_map, Table.names, List.length_map]; exact (Nat.le_of_eq count.symm))
    exact all.nodup_iff.mp nodup
  · intro apart
    have nodup : ((sources.map fun e => (standardName e.1, e.2)).map Prod.fst).Nodup := by
      rw [List.map_map]
      exact apart
    exact (Table.ofEntries_perm nodup).length_eq.trans (List.length_map _)

theorem intact_iff : Intact sources (dependencyTable sources) ↔ Apart sources := by
  refine ⟨fun intact => length_dependencyTable_iff.mp intact.count, fun apart => ?_⟩
  exact ⟨length_dependencyTable_iff.mpr apart, fun e member =>
    (get?_dependencyTable apart.alike (.refl _)).mpr ⟨e, member, rfl, rfl⟩⟩

end Orders

/-- Every order of the keys gives the same dependencies. -/
def Steady (sources : List (String × Source)) : Prop :=
  ∀ f g : ManifestFile, f.dependencies.Perm sources → g.dependencies.Perm sources → ∀ path,
    (f.toManifest path).dependencies = (g.toManifest path).dependencies

theorem steady_iff {sources : List (String × Source)} : Steady sources ↔ Alike sources := by
  rw [← alike_iff]
  constructor
  · intro steady order perm
    exact steady { dependencies := order } { dependencies := sources } perm (.refl _) ""
  · intro same f g permF permG path
    exact (same _ permF).trans (same _ permG).symm

/-- The manifest file of a path, as it is written. -/
def ManifestFile.At (files : FileTree) (path : String) (file : ManifestFile) : Prop :=
  ∃ contents text, files.openAt path = .ok (.file contents) ∧
    String.fromUTF8? contents = some text ∧
    Yaml.RecordType.readText manifestType text {} = .ok file

theorem drawn_toManifest {file : ManifestFile} (alike : Alike file.dependencies) (draw : Drawing)
    (path : String) : (file.drawn draw).toManifest path = file.toManifest path := by
  have same : dependencyTable (draw.order file.dependencies) = dependencyTable file.dependencies :=
    dependencyTable_eq alike (draw.perm _)
  simp only [ManifestFile.toManifest, ManifestFile.drawn, same]

theorem ofText_eq_of_alike {path text : String}
    (alike : ∀ file : ManifestFile, Yaml.RecordType.readText manifestType text {} = .ok file →
      Alike file.dependencies) (draw draw' : Drawing) :
    Manifest.ofText draw path text = Manifest.ofText draw' path text := by
  rw [Manifest.ofText, Manifest.ofText]
  split
  · rfl
  · rfl
  · next file read => simp only [drawn_toManifest (alike file read)]

theorem load_eq_of_alike {files : FileTree} {path : String}
    (alike : ∀ file : ManifestFile, file.At files path → Alike file.dependencies)
    (draw draw' : Drawing) : Manifest.load draw files path = Manifest.load draw' files path := by
  rw [Manifest.load, Manifest.load]
  split
  · rfl
  · rfl
  · next contents opened =>
    split
    · rfl
    · next text decoded =>
      exact ofText_eq_of_alike (fun file read => alike file ⟨contents, text, opened, decoded, read⟩) _ _

/-- Where keys of one spelling have one source, nothing is left to be drawn. -/
theorem sameRead_of_alike {draws draws' : Draws} {files : FileTree} {cwd dir : String}
    {occasion : Occasion}
    (alike : ∀ file : ManifestFile, file.At files (Path.absolute cwd (Path.join [dir, manifestName])) →
      Alike file.dependencies) : SameRead draws draws' files cwd dir occasion := by
  rw [SameRead, Manifest.loadFrom, Manifest.loadFrom]
  split
  · rfl
  · exact load_eq_of_alike alike _ _

/-- What becomes of the dependencies that are read, in whatever order the keys are gone through. Each
key has the source of its last entry. There is one dependency for each spelling of a key, with a source
of such a key. Every key has its dependency, the same one in every order, if and only if no two keys
have one spelling. -/
theorem dependencies_kept_iff {d : Yaml.Document} {n : Yaml.Node} {sources : List (String × Source)}
    (accepted : (readDependencies d n).finish = .ok sources) :
    (∃ declared, List.Forall₂ (Declares d) (entriesOf d n) declared ∧
      (sources.map Prod.fst).Nodup ∧
      ∀ key source, (key, source) ∈ sources ↔ Json.lastOf? key declared = some source) ∧
    (∀ f : ManifestFile, f.dependencies.Perm sources → ∀ path,
      Drawn sources (f.toManifest path).dependencies) ∧
    ((∀ f : ManifestFile, f.dependencies.Perm sources → ∀ path,
      Intact sources (f.toManifest path).dependencies) ∧ Steady sources ↔ Apart sources) ∧
    (Steady sources ↔ Alike sources) := by
  refine ⟨mem_readDependencies_iff accepted, fun f perm path => drawn_dependencyTable perm, ?_,
    steady_iff⟩
  constructor
  · rintro ⟨intact, _⟩
    exact intact_iff.mp (intact { dependencies := sources } (.refl _) "")
  · intro apart
    refine ⟨fun f perm path => ?_, steady_iff.mpr apart.alike⟩
    have same : (f.toManifest path).dependencies = dependencyTable sources :=
      dependencyTable_eq apart.alike perm
    exact same ▸ intact_iff.mpr apart

/-- A mapping of two keys that have one spelling. -/
def respelledText (second : String) : String := "a-b: ../x\na_b: " ++ second ++ "\n"

theorem read_respelledText (second : String) (sources : List (String × Source))
    (reads : (match Yaml.Document.ofText (respelledText second) with
      | .document d => (readDependencies d d.root).finish.toOption
      | _ => none) = some sources) :
    ∃ d, Yaml.Document.ofText (respelledText second) = .document d ∧
      (readDependencies d d.root).finish = .ok sources := by
  cases document : Yaml.Document.ofText (respelledText second) with
  | none | malformed =>
    rw [document] at reads
    cases reads
  | document d =>
    rw [document] at reads
    exact ⟨d, rfl, eq_ok_of_toOption reads⟩

theorem respelledText_drawn : ∃ d sources,
    Yaml.Document.ofText (respelledText "../y") = .document d ∧
    (readDependencies d d.root).finish = .ok sources ∧
    (∀ f : ManifestFile, f.dependencies.Perm sources → ∀ path,
      Drawn sources (f.toManifest path).dependencies) ∧
    ¬ Apart sources ∧ ¬ Steady sources := by
  obtain ⟨d, document, accepted⟩ := read_respelledText "../y"
    [("a-b", { path := "../x" }), ("a_b", { path := "../y" })] (by decide +kernel)
  obtain ⟨_, drawn, _, steady⟩ := dependencies_kept_iff accepted
  exact ⟨d, _, document, accepted, drawn, by decide +kernel, fun always =>
    absurd (steady.mp always) (by decide +kernel)⟩

/-- With one source, two keys have a single dependency. With two sources, it is the one of the key that
comes last. -/
theorem respelled_dependency_lost :
    (∃ d sources, Yaml.Document.ofText (respelledText "../x") = .document d ∧
      (readDependencies d d.root).finish = .ok sources ∧
      sources.map Prod.fst = ["a-b", "a_b"] ∧
      ∀ path, (({ dependencies := sources } : ManifestFile).toManifest path).dependencies =
        [("a_b", { path := "../x" })]) ∧
    ∃ d sources, Yaml.Document.ofText (respelledText "../y") = .document d ∧
      (readDependencies d d.root).finish = .ok sources ∧
      (∀ path, (({ dependencies := sources } : ManifestFile).toManifest path).dependencies =
        [("a_b", { path := "../y" })]) ∧
      ∀ path, (({ dependencies := sources.reverse } : ManifestFile).toManifest path).dependencies =
        [("a_b", { path := "../x" })] := by
  constructor
  · obtain ⟨d, document, accepted⟩ := read_respelledText "../x"
      [("a-b", { path := "../x" }), ("a_b", { path := "../x" })] (by decide +kernel)
    have table : dependencyTable [("a-b", { path := "../x" }), ("a_b", { path := "../x" })] =
        [("a_b", { path := "../x" })] := by
      decide +kernel
    exact ⟨d, _, document, accepted, rfl, fun path => table⟩
  · obtain ⟨d, document, accepted⟩ := read_respelledText "../y"
      [("a-b", { path := "../x" }), ("a_b", { path := "../y" })] (by decide +kernel)
    have first : dependencyTable [("a-b", { path := "../x" }), ("a_b", { path := "../y" })] =
        [("a_b", { path := "../y" })] := by
      decide +kernel
    have second : dependencyTable [("a_b", { path := "../y" }), ("a-b", { path := "../x" })] =
        [("a_b", { path := "../x" })] := by
      decide +kernel
    exact ⟨d, _, document, accepted, fun path => first, fun path => second⟩

end Package

end Smpl
