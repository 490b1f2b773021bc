import Mathlib.Data.List.TakeWhile
import Smpl.Proofs.ManifestFiles

/-!
# Clean paths

A clean path is what remains of a path when its names are gone along: dots and empty names are dropped,
and two dots take the name before them away. Joining parts makes a clean path.

* The names that are gone along (`Path.Settled`) stay as they are when they are gone along again, so
  cleaning once is enough (`Path.cleanNames_clean`).
* A joined path is made of the names that lead along its parts (`Path.join_eq`). It is the same for
  parts that are the same when clean (`Path.join_congr`).
* A text is a single name of a path, and stays one, if it is not empty, no dots, and holds no slash
  (`Path.IsSegment`): such texts, and no others, lead one name further each (`Path.foldl_two_iff`).
-/

namespace Smpl

namespace Path

/-! ## Clean paths -/

/-- Names, last first, that are gone along without any being dropped or taken away. -/
inductive Settled (absolute : Bool) : List (List Char) → Prop
  | start : Settled absolute []
  | on {walked : List (List Char)} {name : List Char} :
      Settled absolute walked → follow absolute walked name = name :: walked →
      Settled absolute (name :: walked)

variable {absolute : Bool} {walked : List (List Char)} {name : List Char}

theorem follow_nil (absolute : Bool) (walked : List (List Char)) :
    follow absolute walked [] = walked := if_pos (.inl rfl)

theorem Settled.foldl (settled : Settled absolute walked) :
    walked.reverse.foldl (Path.follow absolute) [] = walked := by
  induction settled with
  | start => rfl
  | on _ kept ih =>
    rw [List.reverse_cons, List.foldl_append, ih]
    exact kept

theorem Settled.ne_nil (settled : Settled absolute walked) : ∀ name ∈ walked, name ≠ [] := by
  induction settled with
  | start => simp
  | @on walked name _ kept ih =>
    refine List.forall_mem_cons.mpr ⟨?_, ih⟩
    -- An empty name would have been dropped.
    rintro rfl
    exact List.cons_ne_self _ _ (kept.symm.trans (follow_nil absolute walked))

theorem Settled.follow (settled : Settled absolute walked) (name : List Char) :
    Settled absolute (Path.follow absolute walked name) := by
  by_cases skipped : name = [] ∨ name = ['.']
  · rwa [follow.eq_def, if_pos skipped]
  by_cases up : name = ['.', '.']
  · subst up
    cases settled with
    | start =>
      cases absolute with
      | true => exact .start
      | false => exact .on .start rfl
    | @on before last settled kept =>
      by_cases outside : last = ['.', '.']
      · have on : Path.follow absolute (last :: before) ['.', '.'] = ['.', '.'] :: last :: before := by
          simp [Path.follow, outside]
        rw [on]
        exact .on (.on settled kept) on
      · have back : Path.follow absolute (last :: before) ['.', '.'] = before := by
          simp [Path.follow, outside]
        rwa [back]
  · have on : Path.follow absolute walked name = name :: walked := by
      rw [follow.eq_def, if_neg skipped, if_neg up]
    rw [on]
    exact .on settled on

theorem settled_foldl (names : List (List Char)) (settled : Settled absolute walked) :
    Settled absolute (names.foldl (follow absolute) walked) := by
  induction names generalizing walked with
  | nil => exact settled
  | cons name rest ih => exact ih (settled.follow name)

theorem settled_cleanNames (path : String) :
    Settled (isAbsolute path) (cleanNames path).reverse := by
  rw [cleanNames, List.reverse_reverse]
  exact settled_foldl _ .start

theorem ne_nil_of_mem_cleanNames {path : String} (member : name ∈ cleanNames path) : name ≠ [] :=
  (settled_cleanNames path).ne_nil name (List.mem_reverse.mpr member)

theorem isAbsolute_ofNames (absolute : Bool) {shortest : List (List Char)}
    (given : ∀ name ∈ shortest, name ≠ []) (plain : ∀ name ∈ shortest, '/' ∉ name) :
    isAbsolute (ofNames absolute shortest) = absolute := by
  cases absolute with
  | true => simp [isAbsolute, ofNames]
  | false =>
    cases shortest with
    | nil => rfl
    | cons name rest =>
      obtain ⟨c, cs, rfl⟩ := List.exists_cons_of_ne_nil (given name List.mem_cons_self)
      have here : '/' ∉ c :: cs := plain _ List.mem_cons_self
      have other : c ≠ '/' := fun slash => here (slash ▸ List.mem_cons_self)
      have started : (joinNames ((c :: cs) :: rest)).head? = some c := by
        cases rest <;> rfl
      simp [isAbsolute, ofNames, started, other]

/-- Going along the path of some names leads where going along the names does. -/
theorem foldl_names_ofNames (absolute : Bool) {shortest : List (List Char)}
    (plain : ∀ name ∈ shortest, '/' ∉ name) :
    (names (ofNames absolute shortest).toList).foldl (follow absolute) [] =
      shortest.foldl (follow absolute) [] := by
  by_cases nothing : shortest = []
  · subst nothing
    cases absolute <;> rfl
  · cases absolute with
    | true =>
      rw [ofNames, if_pos rfl, String.toList_ofList, names, if_pos rfl, names_joinNames nothing plain,
        List.foldl_cons, follow_nil]
    | false =>
      rw [ofNames, if_neg Bool.false_ne_true, List.isEmpty_eq_false_iff.mpr nothing,
        if_neg Bool.false_ne_true, String.toList_ofList, names_joinNames nothing plain]

theorem slash_not_mem_of_mem_cleanNames {path : String} (member : name ∈ cleanNames path) :
    '/' ∉ name := slash_not_mem_names _ _ (mem_cleanNames member)

theorem isAbsolute_clean (path : String) : isAbsolute (clean path) = isAbsolute path :=
  isAbsolute_ofNames _ (fun _ => ne_nil_of_mem_cleanNames) fun _ => slash_not_mem_of_mem_cleanNames

/-- Going along a clean path leads where going along the path does. -/
theorem foldl_names_clean (path : String) :
    (names (clean path).toList).foldl (follow (isAbsolute path)) [] = (cleanNames path).reverse := by
  rw [clean, foldl_names_ofNames _ fun _ => slash_not_mem_of_mem_cleanNames]
  simpa using (settled_cleanNames path).foldl

theorem cleanNames_clean (path : String) : cleanNames (clean path) = cleanNames path := by
  rw [cleanNames, isAbsolute_clean, foldl_names_clean, List.reverse_reverse]

/-! ## Joined paths -/

theorem names_intercalate (first : String) (rest : List String) :
    names ("/".intercalate (first :: rest)).toList =
      names first.toList ++ rest.flatMap fun part => names part.toList := by
  induction rest generalizing first with
  | nil => exact (List.append_nil _).symm
  | cons part rest ih =>
    have text : "/".intercalate (first :: part :: rest) =
        "/".intercalate ((first ++ "/" ++ part) :: rest) := rfl
    have both : (first ++ "/" ++ part).toList = first.toList ++ '/' :: part.toList := by simp
    rw [text, ih, both, names_append, List.flatMap_cons, List.append_assoc]

theorem isAbsolute_intercalate {first : String} (given : first ≠ "") (rest : List String) :
    isAbsolute ("/".intercalate (first :: rest)) = isAbsolute first := by
  induction rest generalizing first with
  | nil => rfl
  | cons part rest ih =>
    have text : "/".intercalate (first :: part :: rest) =
        "/".intercalate ((first ++ "/" ++ part) :: rest) := rfl
    obtain ⟨c, cs, started⟩ : ∃ c cs, first.toList = c :: cs :=
      List.exists_cons_of_ne_nil fun nothing => given (String.toList_eq_nil_iff.mp nothing)
    rw [text, ih fun nothing => by simpa [started] using congrArg String.toList nothing]
    simp [isAbsolute, started]

/-- The names that lead along some parts of a path, the first of which is not empty; last first. -/
def walkedAlong (first : String) (rest : List String) : List (List Char) :=
  (names first.toList ++ rest.flatMap fun part => names part.toList).foldl
    (follow (isAbsolute first)) []

theorem join_eq {first : String} (given : first ≠ "") (rest : List String) :
    join (first :: rest) = ofNames (isAbsolute first) (walkedAlong first rest).reverse := by
  rw [join, List.dropWhile_cons_of_neg (by simp [given])]
  show clean _ = _
  rw [clean, cleanNames, isAbsolute_intercalate given, names_intercalate, walkedAlong]

theorem cleanNames_join {first : String} (given : first ≠ "") (rest : List String) :
    cleanNames (join (first :: rest)) = (walkedAlong first rest).reverse := by
  rw [join, List.dropWhile_cons_of_neg (by simp [given])]
  show cleanNames (clean _) = _
  rw [cleanNames_clean, cleanNames, isAbsolute_intercalate given, names_intercalate, walkedAlong]

theorem walkedAlong_append (first : String) (rest further : List String) :
    walkedAlong first (rest ++ further) =
      (further.flatMap fun part => names part.toList).foldl (follow (isAbsolute first))
        (walkedAlong first rest) := by
  rw [walkedAlong, List.flatMap_append, ← List.append_assoc, List.foldl_append]
  rfl

/-! ## Directories -/

theorem settled_walkedAlong (first : String) (rest : List String) :
    Settled (isAbsolute first) (walkedAlong first rest) := settled_foldl _ .start

theorem slash_not_mem_walkedAlong {first : String} {rest : List String}
    (member : name ∈ walkedAlong first rest) : '/' ∉ name := by
  rcases mem_foldl_follow member with early | late
  · cases early
  · rcases List.mem_append.mp late with here | later
    · exact slash_not_mem_names _ _ here
    · obtain ⟨part, _, inside⟩ := List.mem_flatMap.mp later
      exact slash_not_mem_names _ _ inside

/-- Names, each with a slash behind it. -/
def slashed (shortest : List (List Char)) : List Char := shortest.flatMap (· ++ ['/'])

theorem joinNames_concat (shortest : List (List Char)) (last : List Char) :
    joinNames (shortest ++ [last]) = slashed shortest ++ last := by
  induction shortest with
  | nil => rfl
  | cons name rest ih =>
    obtain ⟨next, more, split⟩ := List.exists_cons_of_ne_nil
      (List.append_ne_nil_of_right_ne_nil rest (List.cons_ne_nil last []))
    rw [List.cons_append, split, joinNames, ← split, ih]
    · simp [slashed]
    · exact List.cons_ne_nil _ _

theorem names_slashed (shortest : List (List Char)) (plain : ∀ name ∈ shortest, '/' ∉ name)
    (rest : List Char) : names (slashed shortest ++ rest) = shortest ++ names rest := by
  induction shortest with
  | nil => rfl
  | cons name others ih =>
    obtain ⟨here, later⟩ := List.forall_mem_cons.mp plain
    have text : slashed (name :: others) ++ rest = name ++ '/' :: (slashed others ++ rest) := by
      simp [slashed]
    rw [text, names_append, names_eq_singleton here, ih later]
    rfl

/-- The beginning of a path, before its first name. -/
def root (absolute : Bool) : List Char := if absolute then ['/'] else []

theorem ofNames_concat (absolute : Bool) (shortest : List (List Char)) (last : List Char) :
    (ofNames absolute (shortest ++ [last])).toList = root absolute ++ slashed shortest ++ last := by
  cases absolute with
  | true => simp [ofNames, root, joinNames_concat]
  | false => simp [ofNames, root, joinNames_concat]

theorem foldl_names_root (plain : ∀ name ∈ walked, '/' ∉ name) (rest : List Char) :
    (names (root absolute ++ slashed walked ++ rest)).foldl (follow absolute) [] =
      (walked ++ names rest).foldl (follow absolute) [] := by
  cases absolute with
  | true =>
    rw [root, if_pos rfl, List.append_assoc, List.singleton_append, names, if_pos rfl,
      names_slashed walked plain, List.foldl_cons, follow_nil]
  | false =>
    rw [root, if_neg Bool.false_ne_true, List.nil_append, names_slashed walked plain]

theorem lastName_root (plain : ∀ name ∈ walked, '/' ∉ name) {last : List Char} (single : '/' ∉ last) :
    lastName (root absolute ++ slashed walked ++ last) = last := by
  cases absolute with
  | true =>
    rw [lastName, root, if_pos rfl, List.append_assoc, List.singleton_append, names, if_pos rfl,
      names_slashed walked plain, names_eq_singleton single, ← List.cons_append,
      List.getLastD_concat]
  | false =>
    rw [lastName, root, if_neg Bool.false_ne_true, List.nil_append, names_slashed walked plain,
      names_eq_singleton single, List.getLastD_concat]

theorem isAbsolute_root (given : ∀ name ∈ walked, name ≠ []) (plain : ∀ name ∈ walked, '/' ∉ name) :
    isAbsolute (String.ofList (root absolute ++ slashed walked)) = absolute := by
  cases absolute with
  | true => simp [isAbsolute, root]
  | false =>
    cases walked with
    | nil => rfl
    | cons name rest =>
      obtain ⟨c, cs, rfl⟩ := List.exists_cons_of_ne_nil (given name List.mem_cons_self)
      have here : '/' ∉ c :: cs := plain _ List.mem_cons_self
      have other : c ≠ '/' := fun slash => here (slash ▸ List.mem_cons_self)
      simp [isAbsolute, root, slashed, other]

/-- The directory of a path of names is the path of all names but the last. -/
theorem dir_ofNames (settled : Settled absolute walked) (plain : ∀ name ∈ walked, '/' ∉ name)
    {last : List Char} (single : '/' ∉ last) :
    dir (ofNames absolute (last :: walked).reverse) = ofNames absolute walked.reverse := by
  have given : ∀ name ∈ walked.reverse, name ≠ [] := fun name member =>
    settled.ne_nil name (List.mem_reverse.mp member)
  have plain' : ∀ name ∈ walked.reverse, '/' ∉ name := fun name member =>
    plain name (List.mem_reverse.mp member)
  have outer : cleanNames (String.ofList (root absolute ++ slashed walked.reverse)) = walked.reverse := by
    rw [cleanNames, isAbsolute_root given plain', String.toList_ofList,
      ← List.append_nil (root absolute ++ slashed walked.reverse), foldl_names_root plain',
      List.foldl_append, settled.foldl]
    exact congrArg List.reverse (follow_nil absolute walked)
  rw [List.reverse_cons, dir, ofNames_concat, lastName_root plain' single, List.length_append,
    Nat.add_sub_cancel]
  show clean (String.ofList (List.take _ _)) = _
  rw [List.take_left, clean, isAbsolute_root given plain', outer]

theorem ofNames_ne_empty (absolute : Bool) {shortest : List (List Char)}
    (given : ∀ name ∈ shortest, name ≠ []) : ofNames absolute shortest ≠ "" := by
  intro empty
  cases absolute with
  | true => simpa [ofNames] using congrArg String.toList empty
  | false =>
    cases shortest with
    | nil => exact absurd empty (by decide)
    | cons name rest =>
      obtain ⟨c, cs, rfl⟩ := List.exists_cons_of_ne_nil (given name List.mem_cons_self)
      have text := congrArg String.toList empty
      cases rest <;> simp [ofNames, joinNames] at text

theorem clean_ne_empty (path : String) : clean path ≠ "" :=
  ofNames_ne_empty _ fun _ => ne_nil_of_mem_cleanNames

theorem join_ne_empty {parts : List String} {part : String} (member : part ∈ parts) (given : part ≠ "") :
    join parts ≠ "" := by
  rw [join]
  split
  · next nothing =>
    have empty := List.dropWhile_eq_nil_iff.mp nothing part member
    exact absurd (of_decide_eq_true empty) given
  · exact clean_ne_empty _

/-- Only the clean form of the first part matters for a joined path. -/
theorem join_congr {first other : String} (given : first ≠ "") (given' : other ≠ "")
    (same : clean first = clean other) (rest : List String) :
    join (first :: rest) = join (other :: rest) := by
  have absolute : isAbsolute first = isAbsolute other := by
    rw [← isAbsolute_clean first, same, isAbsolute_clean]
  have alone : ∀ part, walkedAlong part [] = (cleanNames part).reverse := fun part => by
    simp [walkedAlong, cleanNames]
  have names : walkedAlong first [] = walkedAlong other [] := by
    rw [alone, alone, ← cleanNames_clean first, same, cleanNames_clean]
  rw [join_eq given, join_eq given', ← List.nil_append rest, walkedAlong_append, walkedAlong_append,
    absolute, names]

/-! ## Single names -/

/-- A text that is one name of a path: it is not empty, no dots, and holds no slash. -/
structure IsSegment (text : String) : Prop where
  proper : FileTree.IsProper text
  plain : '/' ∉ text.toList

theorem follow_of_isProper {text : String} (proper : FileTree.IsProper text) (absolute : Bool)
    (walked : List (List Char)) : follow absolute walked text.toList = text.toList :: walked := by
  obtain ⟨given, one, two⟩ := proper
  have given' : text.toList ≠ [] := fun same => given (String.toList_inj.mp same)
  have one' : text.toList ≠ ['.'] := fun same => one (String.toList_inj.mp same)
  have two' : text.toList ≠ ['.', '.'] := fun same => two (String.toList_inj.mp same)
  rw [follow.eq_def, if_neg (not_or.mpr ⟨given', one'⟩), if_neg two']

theorem length_follow_le (absolute : Bool) (walked : List (List Char)) (name : List Char) :
    (follow absolute walked name).length ≤ walked.length + 1 := by
  fun_cases follow absolute walked name <;> simp +arith

/-- Dots or nothing lead no further from a place that has a name. -/
theorem length_follow_of_not_isProper {text : String} (dots : ¬ FileTree.IsProper text)
    {last : List Char} (named : last ≠ ['.', '.']) (absolute : Bool) (walked : List (List Char)) :
    (follow absolute (last :: walked) text.toList).length ≤ walked.length + 1 := by
  by_cases skipped : text.toList = [] ∨ text.toList = ['.']
  · rw [follow.eq_def, if_pos skipped]
    exact Nat.le_refl _
  · have up : text.toList = ['.', '.'] := by
      by_contra other
      obtain ⟨given, one⟩ := not_or.mp skipped
      refine dots ⟨?_, ?_, ?_⟩
      · rintro rfl
        exact given rfl
      · rintro rfl
        exact one rfl
      · rintro rfl
        exact other rfl
    rw [up, follow.eq_def, if_neg (by simp), if_pos rfl]
    simp only [if_neg named]
    exact Nat.le_succ _

/-- Two texts lead to two further names, which they are, if and only if each is a single name. -/
theorem foldl_two_iff {first second : String} {last : List Char} (named : last ≠ ['.', '.'])
    (plain : '/' ∉ first.toList ∧ '/' ∉ second.toList) :
    (names first.toList ++ names second.toList).foldl (follow absolute) (last :: walked) =
        second.toList :: first.toList :: last :: walked ↔
      IsSegment first ∧ IsSegment second := by
  rw [names_eq_singleton plain.1, names_eq_singleton plain.2]
  show follow absolute (follow absolute (last :: walked) first.toList) second.toList = _ ↔ _
  constructor
  · intro led
    have length := congrArg List.length led
    simp only [List.length_cons] at length
    have proper : FileTree.IsProper first := by
      by_contra dots
      have short := length_follow_of_not_isProper dots named absolute walked
      have step := length_follow_le absolute (follow absolute (last :: walked) first.toList)
        second.toList
      omega
    refine ⟨⟨proper, plain.1⟩, ⟨?_, plain.2⟩⟩
    by_contra dots
    rw [follow_of_isProper proper] at length
    have other : first.toList ≠ ['.', '.'] := fun up => proper.2.2 (String.toList_inj.mp up)
    have short := length_follow_of_not_isProper dots other absolute (last :: walked)
    rw [List.length_cons] at short
    omega
  · rintro ⟨one, two⟩
    rw [follow_of_isProper one.proper, follow_of_isProper two.proper]

/-- Beside the last part of a path lies what the last part is exchanged for. -/
theorem join_dir_join {first last : String} (given : first ≠ "") (rest : List String)
    (segment : IsSegment last) (other : String) :
    join [dir (join (first :: (rest ++ [last]))), other] = join (first :: (rest ++ [other])) := by
  have settled := settled_walkedAlong first rest
  have plain : ∀ name ∈ walkedAlong first rest, '/' ∉ name := fun _ => slash_not_mem_walkedAlong
  have along : ∀ part, walkedAlong first (rest ++ [part]) =
      (names part.toList).foldl (follow (isAbsolute first)) (walkedAlong first rest) := by
    intro part
    rw [walkedAlong_append, List.flatMap_singleton]
  have here : walkedAlong first (rest ++ [last]) = last.toList :: walkedAlong first rest := by
    rw [along, names_eq_singleton segment.plain]
    exact follow_of_isProper segment.proper _ _
  rw [join_eq given, here, dir_ofNames settled plain segment.plain, join_eq given, along]
  -- The directory is a path of its own, along which the same names lead.
  generalize walkedAlong first rest = walked at settled plain
  have given' : ∀ name ∈ walked.reverse, name ≠ [] := fun name member =>
    settled.ne_nil name (List.mem_reverse.mp member)
  have plain' : ∀ name ∈ walked.reverse, '/' ∉ name := fun name member =>
    plain name (List.mem_reverse.mp member)
  rw [join_eq (ofNames_ne_empty _ given'), walkedAlong, isAbsolute_ofNames _ given' plain',
    List.flatMap_singleton, List.foldl_append, foldl_names_ofNames _ plain', settled.foldl]

end Path

end Smpl
