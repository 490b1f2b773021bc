import Mathlib.Data.Finset.Prod
import Mathlib.Data.List.Forall2
import Smpl.Value.Equality

/-!
# Equality of values is bisimilarity

Two values are equal if nothing that can be seen of them tells them apart, however deep one looks
into their vectors. Vectors can hold themselves, so this is a coinductive notion: `v` and `w` are
equal if some relation holds between them and agrees with the rules of equality wherever it holds
(`Value.Bisimulation`).

The comparison of values assumes, of every pair of vectors that it is comparing, that the two are
equal. What it then decides is equality up to the pairs in its table (`Value.EqualUpTo`):
* a value that is no vector is compared by its parts, with the same table;
* the slots of two vectors are compared with the pair itself added to the table
  (`Value.equalUpTo_vector_iff`). The assumption costs nothing, because a relation that contains the
  pair needs no assumption about it; this is why the table may forget the pair afterwards.

The comparison ends because each nested pair of vectors is new to the table (`unlisted`), and it
returns the table that it was given (`Value.equalWithin_settles`). With the empty table it decides
bisimilarity (`Value.equal_iff_bisimilar`).
-/

namespace Smpl

/-! ## Tables over finitely many things -/

/-- How many of finitely many things are not in a table. -/
def unlisted {α : Type} [DecidableEq α] (all : Finset α) (table : List α) : Nat :=
  (all.filter (· ∉ table)).card

theorem unlisted_le_card {α : Type} [DecidableEq α] (all : Finset α) (table : List α) :
    unlisted all table ≤ all.card :=
  Finset.card_filter_le _ _

theorem unlisted_cons_lt {α : Type} [DecidableEq α] {all : Finset α} {table : List α} {a : α}
    (inside : a ∈ all) (new : a ∉ table) : unlisted all (a :: table) < unlisted all table := by
  apply Finset.card_lt_card
  rw [Finset.ssubset_iff_of_subset]
  · exact ⟨a, by simp [inside, new]⟩
  · intro b hb
    simp only [Finset.mem_filter, List.mem_cons, not_or] at hb ⊢
    exact ⟨hb.1, hb.2.2⟩

/-- Only a vector of the store has slots. -/
theorem Vectors.lt_of_mem_slots {vectors : Vectors} {id : VectorId} {v : Value}
    (h : v ∈ (vectors.slots id).toList) : id < vectors.size := by
  by_contra outside
  rw [Vectors.slots, Array.getD_eq_getD_getElem?,
    Array.getElem?_eq_none (Nat.le_of_not_lt outside)] at h
  simp at h

namespace Value

/-! ## Bisimulations -/

/-- The rules of equality, given what counts as equal for the parts. There is no rule for values of
different kinds. -/
inductive Matches (vectors : Vectors) (R : Value → Value → Prop) : Value → Value → Prop
  | nothing : Matches vectors R .nothing .nothing
  | integer {i j : ObjectId} {n : Int64} :
      Matches vectors R (.scalar i (.integer n)) (.scalar j (.integer n))
  /-- Reals are compared as numbers: NaN differs from itself, and the two zeros are equal. -/
  | real {i j : ObjectId} {x y : Float} :
      (x == y) = true → Matches vectors R (.scalar i (.real x)) (.scalar j (.real y))
  | boolean {i j : ObjectId} {b : Bool} :
      Matches vectors R (.scalar i (.boolean b)) (.scalar j (.boolean b))
  | string {i j : ObjectId} {s : String} :
      Matches vectors R (.scalar i (.string s)) (.scalar j (.string s))
  | empty : Matches vectors R .empty .empty
  | pair {i j : ObjectId} {a b c d : Value} :
      R a c → R b d → Matches vectors R (.pair i a b) (.pair j c d)
  | cell {i j : ObjectId} {a b c d : Value} :
      R a c → R b d → Matches vectors R (.cell i a b) (.cell j c d)
  | sameVector {id : VectorId} : Matches vectors R (.vector id) (.vector id)
  /-- Vectors of the same length with slots that are equal one by one. -/
  | slots {l r : VectorId} :
      List.Forall₂ R (vectors.slots l).toList (vectors.slots r).toList →
      Matches vectors R (.vector l) (.vector r)
  | sameGenerator {id : ObjectId} {m n : Int64} {p q : Option Procedure} :
      Matches vectors R (.generator id m p) (.generator id n q)
  | sameProcedure {p q : Procedure} : p.id = q.id → Matches vectors R (.procedure p) (.procedure q)

theorem Matches.mono {vectors : Vectors} {R S : Value → Value → Prop}
    (le : ∀ v w, R v w → S v w) {v w : Value} (h : Matches vectors R v w) :
    Matches vectors S v w := by
  cases h with
  | nothing => exact .nothing
  | integer => exact .integer
  | real same => exact .real same
  | boolean => exact .boolean
  | string => exact .string
  | empty => exact .empty
  | pair first second => exact .pair (le _ _ first) (le _ _ second)
  | cell head tail => exact .cell (le _ _ head) (le _ _ tail)
  | sameVector => exact .sameVector
  | slots all => exact .slots (all.imp le)
  | sameGenerator => exact .sameGenerator
  | sameProcedure same => exact .sameProcedure same

/-- A relation that agrees with the rules of equality wherever it holds. -/
def Bisimulation (vectors : Vectors) (R : Value → Value → Prop) : Prop :=
  ∀ v w, R v w → Matches vectors R v w

/-! ## Equality up to a table -/

/-- The pairs of vectors that a table lets one assume to be equal; their lengths have to agree. -/
inductive Assumed (vectors : Vectors) (table : Comparing) : Value → Value → Prop
  | intro {l r : VectorId} :
      (l, r) ∈ table → (vectors.slots l).toList.length = (vectors.slots r).toList.length →
      Assumed vectors table (.vector l) (.vector r)

/-- A relation that agrees with the rules of equality wherever it holds, if parts may also be
equal by assumption. -/
def BisimulationUpTo (vectors : Vectors) (table : Comparing) (R : Value → Value → Prop) : Prop :=
  ∀ v w, R v w → Matches vectors (fun a b => R a b ∨ Assumed vectors table a b) v w

/-- Equality up to a table: by assumption or by a relation. -/
def EqualUpTo (vectors : Vectors) (table : Comparing) (v w : Value) : Prop :=
  (∃ R, BisimulationUpTo vectors table R ∧ R v w) ∨ Assumed vectors table v w

section UpTo

variable {vectors : Vectors} {table : Comparing}

theorem Assumed.mono {larger : Comparing} (sub : table ⊆ larger) {v w : Value}
    (h : Assumed vectors table v w) : Assumed vectors larger v w := by
  cases h with
  | intro member lengths => exact .intro (sub member) lengths

theorem EqualUpTo.mono {larger : Comparing} (sub : table ⊆ larger) {v w : Value}
    (h : EqualUpTo vectors table v w) : EqualUpTo vectors larger v w := by
  rcases h with ⟨R, bisimulation, related⟩ | assumed
  · refine .inl ⟨R, fun a b hab => ?_, related⟩
    exact (bisimulation a b hab).mono fun _ _ => Or.imp_right (Assumed.mono sub)
  · exact .inr (assumed.mono sub)

/-- The relations up to a table have a greatest one, and it is the one that the rules describe. -/
theorem exists_bisimulationUpTo_iff {v w : Value} :
    (∃ R, BisimulationUpTo vectors table R ∧ R v w) ↔
      Matches vectors (EqualUpTo vectors table) v w := by
  have unfold {a b : Value} :
      (∃ R, BisimulationUpTo vectors table R ∧ R a b) →
        Matches vectors (EqualUpTo vectors table) a b := by
    rintro ⟨R, bisimulation, related⟩
    exact (bisimulation a b related).mono fun _ _ => Or.imp_left fun h => ⟨R, bisimulation, h⟩
  refine ⟨unfold, fun matched => ⟨Matches vectors (EqualUpTo vectors table), ?_, matched⟩⟩
  intro a b hab
  exact hab.mono fun _ _ => Or.imp_left unfold

/-- Nothing is assumed of values other than vectors: they are equal by the rules. -/
theorem equalUpTo_iff_matches {v w : Value} (none : ¬ Assumed vectors table v w) :
    EqualUpTo vectors table v w ↔ Matches vectors (EqualUpTo vectors table) v w := by
  rw [EqualUpTo, or_iff_left none, exists_bisimulationUpTo_iff]

/-- Vectors whose lengths differ are not equal, whatever the table holds. -/
theorem EqualUpTo.length_eq {l r : VectorId} (h : EqualUpTo vectors table (.vector l) (.vector r)) :
    (vectors.slots l).toList.length = (vectors.slots r).toList.length := by
  rcases h with related | ⟨_, lengths⟩
  · cases exists_bisimulationUpTo_iff.mp related with
    | sameVector => rfl
    | slots all => exact all.length_eq
  · exact lengths

/-- To compare two vectors, one may assume that they are equal while comparing their slots. -/
theorem equalUpTo_vector_iff {l r : VectorId} (distinct : l ≠ r) (new : (l, r) ∉ table) :
    EqualUpTo vectors table (.vector l) (.vector r) ↔
      List.Forall₂ (EqualUpTo vectors ((l, r) :: table))
        (vectors.slots l).toList (vectors.slots r).toList := by
  have notAssumed : ¬ Assumed vectors table (.vector l) (.vector r) := by
    rintro ⟨member, _⟩
    exact new member
  constructor
  · intro equal
    cases (equalUpTo_iff_matches notAssumed).mp equal with
    | sameVector => exact absurd rfl distinct
    | slots all => exact all.imp fun _ _ => EqualUpTo.mono (List.subset_cons_self _ _)
  · intro all
    -- The pair joins the relation that relates the slots; there it takes the place of the
    -- assumption about it.
    let R : Value → Value → Prop := fun v w =>
      (∃ S, BisimulationUpTo vectors ((l, r) :: table) S ∧ S v w) ∨
        (v = .vector l ∧ w = .vector r)
    have discharge : ∀ v w, EqualUpTo vectors ((l, r) :: table) v w →
        R v w ∨ Assumed vectors table v w := by
      rintro v w (related | @⟨l', r', member, lengths⟩)
      · exact .inl (.inl related)
      · rcases List.mem_cons.mp member with same | older
        · cases same
          exact .inl (.inr ⟨rfl, rfl⟩)
        · exact .inr (.intro older lengths)
    refine .inl ⟨R, ?_, .inr ⟨rfl, rfl⟩⟩
    rintro v w (related | ⟨rfl, rfl⟩)
    · exact (exists_bisimulationUpTo_iff.mp related).mono discharge
    · exact .slots (all.imp discharge)

end UpTo

/-- With the empty table nothing is assumed. -/
theorem equalUpTo_nil_iff {vectors : Vectors} {v w : Value} :
    EqualUpTo vectors [] v w ↔ ∃ R, Bisimulation vectors R ∧ R v w := by
  have none : ∀ a b, ¬ Assumed vectors [] a b := by
    rintro a b ⟨member, _⟩
    cases member
  constructor
  · rintro (⟨R, bisimulation, related⟩ | assumed)
    · refine ⟨R, fun a b hab => ?_, related⟩
      exact (bisimulation a b hab).mono fun c d h => h.resolve_right (none c d)
    · exact absurd assumed (none v w)
  · rintro ⟨R, bisimulation, related⟩
    exact .inl ⟨R, fun a b hab => (bisimulation a b hab).mono fun _ _ => .inl, related⟩

/-! ## What the comparison decides -/

/-- A comparison that ends, leaves its table as it was and answers a question. -/
def Settles (outcome : EqualOutcome) (table : Comparing) (question : Prop) : Prop :=
  ∃ answer : Bool, outcome = some (answer, table) ∧ (answer = true ↔ question)

theorem Settles.at_once {answer : Bool} {table : Comparing} {question : Prop}
    (h : answer = true ↔ question) : Settles (some (answer, table)) table question :=
  ⟨answer, rfl, h⟩

theorem Settles.congr {outcome : EqualOutcome} {table : Comparing} {P Q : Prop}
    (h : Settles outcome table P) (same : P ↔ Q) : Settles outcome table Q := by
  obtain ⟨answer, ended, iff⟩ := h
  exact ⟨answer, ended, iff.trans same⟩

/-- The second of two comparisons is made only if the first one says yes. -/
theorem Settles.and {first : EqualOutcome} {second : Comparing → EqualOutcome} {table : Comparing}
    {P Q : Prop} :
    Settles first table P → Settles (second table) table Q →
    Settles (match first with
      | some (true, table') => second table'
      | outcome => outcome) table (P ∧ Q) := by
  rintro ⟨answer, rfl, iff⟩ ⟨answer', ended, iff'⟩
  cases answer with
  | true => exact ⟨answer', ended, by rw [iff', and_iff_right (iff.mp rfl)]⟩
  | false => exact ⟨false, rfl, by simp [← iff]⟩

theorem scalar_equal_iff_matches {vectors : Vectors} {R : Value → Value → Prop} {i j : ObjectId}
    {a b : Scalar} : a.equal b = true ↔ Matches vectors R (.scalar i a) (.scalar j b) := by
  constructor
  · intro equal
    cases a with
    | integer m =>
      cases b with
      | integer n =>
        cases beq_iff_eq.mp equal
        exact .integer
      | _ => cases equal
    | real x =>
      cases b with
      | real y => exact .real equal
      | _ => cases equal
    | boolean s =>
      cases b with
      | boolean t =>
        cases beq_iff_eq.mp equal
        exact .boolean
      | _ => cases equal
    | string s =>
      cases b with
      | string t =>
        cases beq_iff_eq.mp equal
        exact .string
      | _ => cases equal
  · intro matched
    cases matched with
    | real equal => exact equal
    | _ => exact beq_self_eq_true _

theorem pair_matches_iff {vectors : Vectors} {R : Value → Value → Prop} {i j : ObjectId}
    {a b c d : Value} :
    Matches vectors R (.pair i a b) (.pair j c d) ↔ R a c ∧ R b d :=
  ⟨fun | .pair first second => ⟨first, second⟩, fun h => .pair h.1 h.2⟩

theorem cell_matches_iff {vectors : Vectors} {R : Value → Value → Prop} {i j : ObjectId}
    {a b c d : Value} :
    Matches vectors R (.cell i a b) (.cell j c d) ↔ R a c ∧ R b d :=
  ⟨fun | .cell head tail => ⟨head, tail⟩, fun h => .cell h.1 h.2⟩

theorem generator_matches_iff {vectors : Vectors} {R : Value → Value → Prop} {i j : ObjectId}
    {m n : Int64} {p q : Option Procedure} :
    Matches vectors R (.generator i m p) (.generator j n q) ↔ i = j :=
  ⟨fun | .sameGenerator => rfl, fun h => h ▸ .sameGenerator⟩

theorem procedure_matches_iff {vectors : Vectors} {R : Value → Value → Prop} {p q : Procedure} :
    Matches vectors R (.procedure p) (.procedure q) ↔ p.id = q.id :=
  ⟨fun | .sameProcedure same => same, .sameProcedure⟩

section Comparison

variable {vectors : Vectors} {table : Comparing}

/-- Of values that are not both vectors nothing is assumed, so the rules settle them. -/
theorem settles_of_matches {outcome : EqualOutcome} {v w : Value}
    (none : ¬ Assumed vectors table v w)
    (h : Settles outcome table (Matches vectors (EqualUpTo vectors table) v w)) :
    Settles outcome table (EqualUpTo vectors table v w) :=
  h.congr (equalUpTo_iff_matches none).symm

theorem equalBy_settles {visit : VectorId → VectorId → Comparing → EqualOutcome}
    (visits : ∀ l r, Settles (visit l r table) table
      (EqualUpTo vectors table (.vector l) (.vector r))) (v w : Value) :
    Settles (equalBy visit v w table) table (EqualUpTo vectors table v w) := by
  induction v generalizing w with
  | nothing =>
    refine settles_of_matches nofun ?_
    cases w with
    | nothing => exact .at_once (iff_of_true rfl .nothing)
    | _ => exact .at_once (iff_of_false nofun nofun)
  | scalar i a =>
    refine settles_of_matches nofun ?_
    cases w with
    | scalar j b => exact .at_once scalar_equal_iff_matches
    | _ => exact .at_once (iff_of_false nofun nofun)
  | empty =>
    refine settles_of_matches nofun ?_
    cases w with
    | empty => exact .at_once (iff_of_true rfl .empty)
    | _ => exact .at_once (iff_of_false nofun nofun)
  | pair i a b first second =>
    refine settles_of_matches nofun ?_
    cases w with
    | pair j c d => exact ((first c).and (second d)).congr pair_matches_iff.symm
    | _ => exact .at_once (iff_of_false nofun nofun)
  | cell i a b head tail =>
    refine settles_of_matches nofun ?_
    cases w with
    | cell j c d => exact ((head c).and (tail d)).congr cell_matches_iff.symm
    | _ => exact .at_once (iff_of_false nofun nofun)
  | vector l =>
    cases w with
    | vector r => exact visits l r
    | _ => exact settles_of_matches nofun (.at_once (iff_of_false nofun nofun))
  | generator i m p =>
    refine settles_of_matches nofun ?_
    cases w with
    | generator j n q => exact .at_once (beq_iff_eq.trans generator_matches_iff.symm)
    | _ => exact .at_once (iff_of_false nofun nofun)
  | procedure p =>
    refine settles_of_matches nofun ?_
    cases w with
    | procedure q => exact .at_once (beq_iff_eq.trans procedure_matches_iff.symm)
    | _ => exact .at_once (iff_of_false nofun nofun)

theorem equalAll_settles {compare : Value → Value → Comparing → EqualOutcome}
    {question : Value → Value → Prop} {vs ws : List Value}
    (compares : ∀ v ∈ vs, ∀ w ∈ ws, Settles (compare v w table) table (question v w)) :
    Settles (equalAll compare vs ws table) table (List.Forall₂ question vs ws) := by
  induction vs generalizing ws with
  | nil =>
    cases ws with
    | nil => exact .at_once (iff_of_true rfl .nil)
    | cons w ws => exact .at_once (iff_of_false nofun nofun)
  | cons v vs ih =>
    cases ws with
    | nil => exact .at_once (iff_of_false nofun nofun)
    | cons w ws =>
      have here := compares v List.mem_cons_self w List.mem_cons_self
      have rest := ih fun a ha b hb =>
        compares a (List.mem_cons_of_mem _ ha) b (List.mem_cons_of_mem _ hb)
      exact (here.and rest).congr List.forall₂_cons.symm

/-- The pair of vectors goes into the table for the comparison of the slots, and out of it again. -/
theorem equalVectors_settles {compare : Value → Value → Comparing → EqualOutcome} {l r : VectorId}
    (compares : (l, r) ∉ table → ∀ v ∈ (vectors.slots l).toList,
      ∀ w ∈ (vectors.slots r).toList, Settles (compare v w ((l, r) :: table)) ((l, r) :: table)
        (EqualUpTo vectors ((l, r) :: table) v w)) :
    Settles (equalVectors vectors compare l r table) table
      (EqualUpTo vectors table (.vector l) (.vector r)) := by
  simp only [equalVectors]
  split
  · next differ => exact .at_once (iff_of_false nofun fun equal => differ equal.length_eq)
  · next lengths =>
    split
    · next same =>
      subst same
      exact .at_once (iff_of_true rfl (.inl (exists_bisimulationUpTo_iff.mpr .sameVector)))
    · next distinct =>
      split
      · next member =>
        exact .at_once (iff_of_true rfl (.inr (.intro member (not_not.mp lengths))))
      · next new =>
        obtain ⟨answer, ended, iff⟩ := equalAll_settles (compares new)
        rw [ended]
        simp only [List.erase_cons_head]
        exact .at_once (iff.trans (equalUpTo_vector_iff distinct new).symm)

/-- The pairs of vectors of a store. -/
def vectorPairs (vectors : Vectors) : Finset (VectorId × VectorId) :=
  Finset.range vectors.size ×ˢ Finset.range vectors.size

/-- A comparison whose bound exceeds the number of pairs that are not in its table ends, returns
its table and decides equality up to the table. -/
theorem equalWithin_settles {bound : Nat} (enough : unlisted (vectorPairs vectors) table < bound)
    (v w : Value) :
    Settles (equalWithin vectors bound v w table) table (EqualUpTo vectors table v w) := by
  induction bound generalizing table v w with
  | zero => omega
  | succ bound ih =>
    refine equalBy_settles (fun l r => equalVectors_settles fun new a ha b hb => ?_) v w
    -- Only vectors of the store have slots, so the pair was one of those not yet in the table.
    have inside : (l, r) ∈ vectorPairs vectors := by
      rw [vectorPairs, Finset.mem_product, Finset.mem_range, Finset.mem_range]
      exact ⟨Vectors.lt_of_mem_slots ha, Vectors.lt_of_mem_slots hb⟩
    have fewer := unlisted_cons_lt inside new
    exact ih (by omega) a b

theorem unlisted_lt_equalBound (vectors : Vectors) (table : Comparing) :
    unlisted (vectorPairs vectors) table < equalBound vectors := by
  have most := unlisted_le_card (vectorPairs vectors) table
  rw [vectorPairs, Finset.card_product, Finset.card_range] at most
  exact Nat.lt_succ_of_le most

end Comparison

/-- Two values are equal exactly when some bisimulation relates them. -/
theorem equal_iff_bisimilar (vectors : Vectors) (v w : Value) :
    v.equal vectors w = true ↔ ∃ R, Bisimulation vectors R ∧ R v w := by
  obtain ⟨answer, ended, iff⟩ :=
    equalWithin_settles (unlisted_lt_equalBound vectors []) v w
  rw [equal, ended]
  exact iff.trans equalUpTo_nil_iff

/-- A vector that holds itself equals two that hold each other. -/
example : equal #[#[.vector 0], #[.vector 2], #[.vector 1]] (.vector 0) (.vector 1) = true := by
  decide

end Value

end Smpl
