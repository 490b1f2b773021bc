import Mathlib.Data.List.Infix
import Mathlib.Logic.Relation
import Smpl.Proofs.CyclicVectors

/-!
# Printing against the plain rendering

Printing keeps a table of the vectors that it is inside of. Here is what it prints without any table:
a value is rendered by its structure, part for part, but for certain occurrences of vectors that are
left out, and dots stand for them (`Rendered`). An occurrence is given by the path that leads to it
from the value as a whole, so that a vector that is shared has many.

* The occurrences that printing leaves out are those inside an occurrence of the same vector
  (`Repeats`): on the path to it there is the vector already.
* At each path the table holds the vectors on the way to it (`Inside`). One step down keeps this
  (`Inside.step`), a vector goes into the table for the time of its slots, and by induction all that
  is printed is the rendering (`formatWithin_rendered`).
* Where no vector can be reached from its own slots no occurrence repeats (`Acyclic.not_repeats`), so
  there the rendering leaves out nothing.

Main result: `format_eq_iff_rendered`.
-/

namespace Smpl.Value

/-! ## Parts -/

/-- The way from a value to one of its parts. -/
inductive Step where
  | first
  | second
  | head
  | tail
  | slot (index : Nat)
  deriving DecidableEq, Repr

/-- The part of a value that a step leads to. -/
def part? (vectors : Vectors) : Value → Step → Option Value
  | .pair _ first _, .first => some first
  | .pair _ _ second, .second => some second
  | .cell _ head _, .head => some head
  | .cell _ _ tail, .tail => some tail
  | .vector id, .slot index => (vectors.slots id)[index]?
  | _, _ => none

/-- What stands where a path leads from a value. -/
def occurrence? (vectors : Vectors) (root : Value) (path : List Step) : Option Value :=
  path.foldlM (part? vectors) root

/-- The second value is a part of the first. -/
def Holds (vectors : Vectors) (v w : Value) : Prop := ∃ step, part? vectors v step = some w

/-- No vector that can be reached from the value can be reached from its own slots. -/
def Acyclic (vectors : Vectors) (root : Value) : Prop :=
  ∀ id, Relation.ReflTransGen (Holds vectors) root (.vector id) →
    ¬ Relation.TransGen (Holds vectors) (.vector id) (.vector id)

/-- The path leads to a vector, and so does a shorter path on the way. -/
def Repeats (vectors : Vectors) (root : Value) (path : List Step) : Prop :=
  ∃ id way, way <+: path ∧ way ≠ path ∧ occurrence? vectors root way = some (.vector id) ∧
    occurrence? vectors root path = some (.vector id)

section Paths

variable {vectors : Vectors} {root v w : Value} {path : List Step}

theorem occurrence?_append (reached : occurrence? vectors root path = some v) (rest : List Step) :
    occurrence? vectors root (path ++ rest) = occurrence? vectors v rest := by
  rw [occurrence?, List.foldlM_append, ← occurrence?, reached]
  rfl

theorem occurrence?_concat (reached : occurrence? vectors root path = some v) (step : Step) :
    occurrence? vectors root (path ++ [step]) = part? vectors v step := by
  rw [occurrence?_append reached, occurrence?, List.foldlM_cons]
  exact bind_pure (part? vectors v step)

theorem holds_of_occurrence? (reached : occurrence? vectors v path = some w) :
    Relation.ReflTransGen (Holds vectors) v w := by
  induction path generalizing v with
  | nil =>
    cases reached
    exact .refl
  | cons step path ih =>
    obtain ⟨u, here, later⟩ := Option.bind_eq_some_iff.mp reached
    exact .head ⟨step, here⟩ (ih later)

/-- A vector that occurs inside itself can be reached from its slots. -/
theorem Acyclic.not_repeats (acyclic : Acyclic vectors root) (path : List Step) :
    ¬ Repeats vectors root path := by
  rintro ⟨id, way, ⟨rest, rfl⟩, longer, first, again⟩
  refine acyclic id (holds_of_occurrence? first) ?_
  rw [occurrence?_append first] at again
  cases rest with
  | nil => exact absurd (List.append_nil way).symm longer
  | cons step rest =>
    obtain ⟨u, here, later⟩ := Option.bind_eq_some_iff.mp again
    exact .head' ⟨step, here⟩ (holds_of_occurrence? later)

end Paths

/-! ## The plain rendering -/

/-- The rendering of a value by its structure. The value stands at a path, and as the tail of a list
(`inTail`) it is written as the list goes on. In place of the vectors at the paths that are left out
there are dots. -/
inductive Rendered (vectors : Vectors) (leftOut : List Step → Prop) :
    List Step → Bool → Value → String → Prop
  | nothing {path : List Step} {inTail : Bool} :
      Rendered vectors leftOut path inTail .nothing (dotted inTail "<nil>")
  | scalar {path : List Step} {inTail : Bool} {id : ObjectId} {contents : Scalar} :
      Rendered vectors leftOut path inTail (.scalar id contents) (dotted inTail contents.format)
  | empty {path : List Step} {inTail : Bool} :
      Rendered vectors leftOut path inTail .empty (if inTail then "" else "()")
  | pair {path : List Step} {inTail : Bool} {id : ObjectId} {first second : Value}
      {firstText secondText : String} :
      Rendered vectors leftOut (path ++ [.first]) false first firstText →
      Rendered vectors leftOut (path ++ [.second]) false second secondText →
      Rendered vectors leftOut path inTail (.pair id first second)
        (dotted inTail ("(" ++ firstText ++ " . " ++ secondText ++ ")"))
  | cell {path : List Step} {inTail : Bool} {id : ObjectId} {head tail : Value}
      {headText tailText : String} :
      Rendered vectors leftOut (path ++ [.head]) false head headText →
      Rendered vectors leftOut (path ++ [.tail]) true tail tailText →
      Rendered vectors leftOut path inTail (.cell id head tail)
        (if inTail then " " ++ headText ++ tailText else "(" ++ headText ++ tailText ++ ")")
  | dots {path : List Step} {inTail : Bool} {id : VectorId} : leftOut path →
      Rendered vectors leftOut path inTail (.vector id) (dotted inTail "[...]")
  | vector {path : List Step} {inTail : Bool} {id : VectorId} {texts : List String} :
      ¬ leftOut path → texts.length = (vectors.slots id).size →
      (∀ (i : Nat) (v : Value) (text : String), (vectors.slots id)[i]? = some v →
        texts[i]? = some text → Rendered vectors leftOut (path ++ [.slot i]) false v text) →
      Rendered vectors leftOut path inTail (.vector id)
        (dotted inTail ("[" ++ ", ".intercalate texts ++ "]"))
  | generator {path : List Step} {inTail : Bool} {id : ObjectId} {count : Int64}
      {source : Option Procedure} :
      Rendered vectors leftOut path inTail (.generator id count source)
        (dotted inTail ("[VectorGenerator: " ++ Numeric.integerText count ++ "]"))
  | procedure {path : List Step} {inTail : Bool} {closure : Procedure} :
      Rendered vectors leftOut path inTail (.procedure closure) (dotted inTail closure.format)

theorem Rendered.unique {vectors : Vectors} {leftOut : List Step → Prop} {path : List Step}
    {inTail : Bool} {v : Value} {text text' : String}
    (rendered : Rendered vectors leftOut path inTail v text)
    (rendered' : Rendered vectors leftOut path inTail v text') : text = text' := by
  induction rendered generalizing text' with
  | pair _ _ ihFirst ihSecond =>
    cases rendered' with
    | pair first second => rw [ihFirst first, ihSecond second]
  | cell _ _ ihHead ihTail =>
    cases rendered' with
    | cell head tail => rw [ihHead head, ihTail tail]
  | dots out =>
    cases rendered' with
    | dots => rfl
    | vector kept => exact absurd out kept
  | @vector path inTail id texts kept size _ ih =>
    cases rendered' with
    | dots out => exact absurd out kept
    | @vector _ _ _ texts' _ size' slots =>
      have same : texts = texts' := by
        refine List.ext_getElem (size.trans size'.symm) fun i bound bound' => ?_
        have slot : i < (vectors.slots id).size := size ▸ bound
        exact ih i _ _ (Array.getElem?_eq_getElem slot) (List.getElem?_eq_getElem bound)
          (slots i _ _ (Array.getElem?_eq_getElem slot) (List.getElem?_eq_getElem bound'))
      rw [same]
  | _ =>
    cases rendered'
    rfl

/-! ## What printing gives -/

/-- The table holds the vectors on the way to the end of the path. -/
def Inside (vectors : Vectors) (root : Value) (path : List Step) (table : Printing) : Prop :=
  ∀ id, id ∈ table ↔
    ∃ way, way <+: path ∧ way ≠ path ∧ occurrence? vectors root way = some (.vector id)

section Printing

variable {vectors : Vectors} {root v : Value} {path : List Step} {table table' : Printing}
  {inTail : Bool} {text : String}

theorem inside_nil : Inside vectors root [] [] := by
  intro id
  constructor
  · exact fun member => nomatch member
  · rintro ⟨way, shorter, other, -⟩
    exact absurd (List.prefix_nil.mp shorter) other

/-- One step down from a value the way has that value on it. -/
theorem Inside.step (inside : Inside vectors root path table)
    (reached : occurrence? vectors root path = some v)
    (entered : ∀ id, id ∈ table' ↔ v = .vector id ∨ id ∈ table) (step : Step) :
    Inside vectors root (path ++ [step]) table' := by
  intro id
  rw [entered, inside id]
  constructor
  · rintro (rfl | ⟨way, shorter, -, first⟩)
    · exact ⟨path, List.prefix_append _ _, by simp, reached⟩
    · refine ⟨way, shorter.trans (List.prefix_append _ _), ?_, first⟩
      rintro rfl
      exact absurd shorter.length_le (by simp)
  · rintro ⟨way, shorter, other, first⟩
    obtain whole | shorter := List.prefix_concat_iff.mp shorter
    · exact absurd whole other
    · by_cases same : way = path
      · subst same
        rw [reached] at first
        exact .inl (Option.some.inj first)
      · exact .inr ⟨way, shorter, same, first⟩

/-- A value that is no vector puts nothing into the table. -/
theorem Inside.pass (inside : Inside vectors root path table)
    (reached : occurrence? vectors root path = some v) (other : ∀ id, v ≠ .vector id) (step : Step) :
    Inside vectors root (path ++ [step]) table :=
  inside.step reached (fun id => by simp [other id]) step

theorem Inside.repeats_iff {id : VectorId} (inside : Inside vectors root path table)
    (reached : occurrence? vectors root path = some (.vector id)) :
    Repeats vectors root path ↔ id ∈ table := by
  rw [inside id]
  constructor
  · rintro ⟨id', way, shorter, other, first, again⟩
    rw [reached] at again
    cases again
    exact ⟨way, shorter, other, first⟩
  · rintro ⟨way, shorter, other, first⟩
    exact ⟨id, way, shorter, other, first, reached⟩

theorem formatBy_rendered {visit : VectorId → Printing → FormatOutcome}
    (visits : ∀ id path, Inside vectors root path table →
      occurrence? vectors root path = some (.vector id) →
      ∀ text table', visit id table = some (text, table') →
        table' = table ∧ ∀ inTail, Rendered vectors (Repeats vectors root) path inTail (.vector id)
          (dotted inTail text))
    (inside : Inside vectors root path table) (reached : occurrence? vectors root path = some v)
    (printed : formatBy visit inTail v table = some (text, table')) :
    table' = table ∧ Rendered vectors (Repeats vectors root) path inTail v text := by
  induction v generalizing path inTail text table' with
  | pair id first second ihFirst ihSecond =>
    unfold formatBy at printed
    split at printed
    · cases printed
    · next printedFirst =>
      obtain ⟨rfl, renderedFirst⟩ :=
        ihFirst (inside.pass reached nofun _) (occurrence?_concat reached .first) printedFirst
      split at printed
      · cases printed
      · next printedSecond =>
        obtain ⟨rfl, renderedSecond⟩ :=
          ihSecond (inside.pass reached nofun _) (occurrence?_concat reached .second) printedSecond
        cases printed
        exact ⟨rfl, .pair renderedFirst renderedSecond⟩
  | cell id head tail ihHead ihTail =>
    unfold formatBy at printed
    split at printed
    · cases printed
    · next printedHead =>
      obtain ⟨rfl, renderedHead⟩ :=
        ihHead (inside.pass reached nofun _) (occurrence?_concat reached .head) printedHead
      split at printed
      · cases printed
      · next printedTail =>
        obtain ⟨rfl, renderedTail⟩ :=
          ihTail (inside.pass reached nofun _) (occurrence?_concat reached .tail) printedTail
        cases printed
        exact ⟨rfl, .cell renderedHead renderedTail⟩
  | vector id =>
    unfold formatBy at printed
    split at printed
    · cases printed
    · next visited =>
      obtain ⟨rfl, rendered⟩ := visits id path inside reached _ _ visited
      cases printed
      exact ⟨rfl, rendered inTail⟩
  | nothing =>
    cases printed
    exact ⟨rfl, .nothing⟩
  | scalar =>
    cases printed
    exact ⟨rfl, .scalar⟩
  | empty =>
    cases printed
    exact ⟨rfl, .empty⟩
  | generator =>
    cases printed
    exact ⟨rfl, .generator⟩
  | procedure =>
    cases printed
    exact ⟨rfl, .procedure⟩

/-- Printing in order is printing each of the values, if that gives back the table. -/
theorem formatAll_eq_some {print : Value → Printing → FormatOutcome} {vs : List Value}
    {texts : List String}
    (keeps : ∀ v ∈ vs, ∀ text table', print v table = some (text, table') → table' = table)
    (printed : formatAll print vs table = some (texts, table')) :
    table' = table ∧ texts.length = vs.length ∧
      ∀ (i : Nat) (v : Value) (text : String), vs[i]? = some v → texts[i]? = some text →
        print v table = some (text, table) := by
  induction vs generalizing texts with
  | nil =>
    cases printed
    exact ⟨rfl, rfl, fun i v text slot => nomatch slot⟩
  | cons v vs ih =>
    unfold formatAll at printed
    split at printed
    · cases printed
    · next printedHere =>
      obtain rfl := keeps v List.mem_cons_self _ _ printedHere
      split at printed
      · cases printed
      · next printedRest =>
        cases printed
        obtain ⟨rfl, length, rest⟩ := ih (fun w hw => keeps w (List.mem_cons_of_mem _ hw)) printedRest
        refine ⟨rfl, congrArg Nat.succ length, fun i w text slot written => ?_⟩
        cases i with
        | zero =>
          cases slot
          cases written
          exact printedHere
        | succ i => exact rest i w text slot written

/-- The vector is in the table for the printing of its slots only. -/
theorem formatVector_rendered {print : Value → Printing → FormatOutcome} {id : VectorId}
    (prints : ∀ v path, Inside vectors root path (id :: table) →
      occurrence? vectors root path = some v →
      ∀ text table', print v (id :: table) = some (text, table') →
        table' = id :: table ∧ Rendered vectors (Repeats vectors root) path false v text)
    (inside : Inside vectors root path table)
    (reached : occurrence? vectors root path = some (.vector id))
    (printed : formatVector vectors print id table = some (text, table')) :
    table' = table ∧ ∀ inTail,
      Rendered vectors (Repeats vectors root) path inTail (.vector id) (dotted inTail text) := by
  have repeats := inside.repeats_iff reached
  have slots (i : Nat) (v : Value) (slot : (vectors.slots id)[i]? = some v) :=
    prints v (path ++ [.slot i]) (inside.step reached (by simp [eq_comm]) (.slot i))
      ((occurrence?_concat reached (.slot i)).trans slot)
  unfold formatVector at printed
  split at printed
  · next member =>
    cases printed
    exact ⟨rfl, fun inTail => .dots (repeats.mpr member)⟩
  · next new =>
    split at printed
    · next texts _ printedSlots =>
      obtain ⟨rfl, length, each⟩ := formatAll_eq_some (fun v member text table' printedSlot => by
        obtain ⟨i, slot⟩ := List.mem_iff_getElem?.mp member
        exact (slots i v (by simpa using slot) text table' printedSlot).1) printedSlots
      cases printed
      refine ⟨List.erase_cons_head _ _, fun inTail => ?_⟩
      refine .vector (mt repeats.mp new) (by simpa using length) ?_
      intro i v text slot written
      exact (slots i v slot text _ (each i v text (by simpa using slot) written)).2
    · cases printed

/-- Whatever is printed inside the vectors on the way is the rendering of what stands there. -/
theorem formatWithin_rendered {bound : Nat} (inside : Inside vectors root path table)
    (reached : occurrence? vectors root path = some v)
    (printed : formatWithin vectors bound v table = some (text, table')) :
    table' = table ∧ Rendered vectors (Repeats vectors root) path false v text := by
  induction bound generalizing path v table text table' with
  | zero =>
    refine formatBy_rendered (fun id path _ _ text table' visited => ?_) inside reached printed
    cases visited
  | succ bound ih =>
    refine formatBy_rendered (fun id path inside reached text table' visited => ?_) inside reached
      printed
    exact formatVector_rendered (fun v path inside reached text table' => ih inside reached) inside
      reached visited

theorem rendered_format (vectors : Vectors) (v : Value) :
    Rendered vectors (Repeats vectors v) [] false v (v.format vectors) := by
  obtain ⟨text, prints⟩ := formatWithin_prints vectors [] v
  have ended : formatWithin vectors (formatBound vectors) v [] = some (text, []) :=
    prints _ (unlisted_lt_formatBound vectors [])
  rw [format, ended]
  exact (formatWithin_rendered inside_nil rfl ended).2

end Printing

/-- The printed form of a value is its rendering with dots for the vectors that occur inside
themselves. If no vector can be reached from its own slots, it is the plain rendering, which leaves
nothing out, however often parts are shared. -/
theorem format_eq_iff_rendered (vectors : Vectors) (v : Value) :
    (∀ text, v.format vectors = text ↔ Rendered vectors (Repeats vectors v) [] false v text) ∧
    (Acyclic vectors v →
      ∀ text, v.format vectors = text ↔ Rendered vectors (fun _ => False) [] false v text) := by
  have rendered (text : String) :
      v.format vectors = text ↔ Rendered vectors (Repeats vectors v) [] false v text := by
    constructor
    · rintro rfl
      exact rendered_format vectors v
    · exact (rendered_format vectors v).unique
  refine ⟨rendered, fun acyclic => ?_⟩
  have none : Repeats vectors v = fun _ => False :=
    funext fun path => propext (iff_false_intro (acyclic.not_repeats path))
  rwa [none] at rendered

/-- A vector that is shared by the two halves of a pair. -/
theorem format_eq_iff_rendered_shared :
    Acyclic #[#[.scalar 1 (.integer 7)]] (.pair 0 (.vector 0) (.vector 0)) ∧
      Rendered #[#[.scalar 1 (.integer 7)]] (fun _ => False) [] false
        (.pair 0 (.vector 0) (.vector 0)) "([7] . [7])" := by
  have acyclic : Acyclic #[#[.scalar 1 (.integer 7)]] (.pair 0 (.vector 0) (.vector 0)) := by
    intro id _ cycle
    obtain ⟨w, ⟨step, part⟩, reached⟩ := Relation.TransGen.head'_iff.mp cycle
    have slot : w = .scalar 1 (.integer 7) := by
      cases step with
      | slot index => cases id <;> cases index <;> simp_all [part?, Vectors.slots]
      | _ => cases part
    subst slot
    obtain same | ⟨w, ⟨step, part⟩, -⟩ := Relation.ReflTransGen.cases_head_iff.mp reached
    · cases same
    · cases part
  exact ⟨acyclic, ((format_eq_iff_rendered _ _).2 acyclic _).mp (by decide)⟩

end Smpl.Value
