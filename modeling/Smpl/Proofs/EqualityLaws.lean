import Smpl.Proofs.Bisimulation
import Smpl.Value.Operators

/-!
# The laws of equality

Equality of values is symmetric and transitive, and values of different kinds are not equal. It is
not reflexive: NaN is a number that differs from itself, and so does a pair or a list that holds NaN
(`Value.hasNaN`). A vector equals itself whatever it holds.

Two values are equal if some bisimulation relates them, so a law of equality says how to make a
bisimulation from given ones:
* turned round (`Value.Bisimulation.converse`);
* one after the other (`Value.Bisimulation.chain`). A vector is related to itself even if its slots
  are not. What stands on the other side of it is then related by one of the two alone, so their
  composition is not enough, and the two belong to the new relation themselves.

Equality of reals obeys the same laws, because it is sameness but for NaN and for the two zeros
(`Numeric.beq_iff`).

Main result: `Value.equal_partial_equivalence`.
-/

namespace Smpl

/-! ## Reals -/

namespace Numeric

open Float.Model (UnpackedFloat)

theorem same_or_zero_of_beq {a b : UnpackedFloat} (equal : a.beq b = true) :
    (a.isNaN = false ∧ a = b) ∨ ∃ s t, a = .zero s ∧ b = .zero t := by
  cases a with
  | notANumber => cases equal
  | infinity s =>
    cases b with
    | infinity t => cases s <;> cases t <;> first | exact .inl ⟨rfl, rfl⟩ | cases equal
    | _ => cases s <;> cases equal
  | zero s =>
    cases b with
    | notANumber => cases equal
    | zero t => exact .inr ⟨s, t, rfl, rfl⟩
    | infinity t => cases t <;> cases equal
    | finite t _ _ _ => cases t <;> cases equal
  | finite s m e _ =>
    cases b with
    | notANumber => cases equal
    | zero t => cases s <;> cases equal
    | infinity t => cases t <;> cases equal
    | finite t n f _ =>
      -- Exponents are compared before mantissas; both have to be the same.
      have digits : s = t ∧ e = f ∧ m = n := by
        cases s <;> cases t
        · change (some ((compare e f).then (compare m n)).swap == some .eq) = true at equal
          simpa using equal
        · cases equal
        · cases equal
        · change (some ((compare e f).then (compare m n)) == some .eq) = true at equal
          simpa using equal
      obtain ⟨rfl, rfl, rfl⟩ := digits
      exact .inl ⟨rfl, rfl⟩

theorem unpacked_beq_self {a : UnpackedFloat} (number : a.isNaN = false) : a.beq a = true := by
  cases a with
  | notANumber => cases number
  | infinity s => cases s <;> rfl
  | zero s => rfl
  | finite s m e _ =>
    cases s with
    | negative =>
      show (some ((compare e e).then (compare m m)).swap == some .eq) = true
      simp
    | positive =>
      show (some ((compare e e).then (compare m m)) == some .eq) = true
      simp

/-- Reals are equal if they have the same digits and are not NaN, or if both are zero. -/
theorem beq_iff {x y : Float} :
    (x == y) = true ↔ (x.isNaN = false ∧ x.toModel.unpack = y.toModel.unpack) ∨
      ∃ s t, x.toModel.unpack = .zero s ∧ y.toModel.unpack = .zero t := by
  show x.toModel.unpack.beq y.toModel.unpack = true ↔ _
  constructor
  · exact same_or_zero_of_beq
  · rintro (⟨number, same⟩ | ⟨s, t, zero, zero'⟩)
    · rw [← same]
      exact unpacked_beq_self number
    · rw [zero, zero']
      rfl

theorem beq_symm {x y : Float} (equal : (x == y) = true) : (y == x) = true := by
  rw [beq_iff] at equal ⊢
  rcases equal with ⟨number, same⟩ | ⟨s, t, left, right⟩
  · refine .inl ⟨?_, same.symm⟩
    rw [Float.isNaN, Float.Model.isNaN, ← same]
    exact number
  · exact .inr ⟨t, s, right, left⟩

theorem beq_trans {x y z : Float} (first : (x == y) = true) (second : (y == z) = true) :
    (x == z) = true := by
  rw [beq_iff] at first second ⊢
  rcases first with ⟨number, same⟩ | ⟨s, t, left, middle⟩
  · rcases second with ⟨_, same'⟩ | ⟨s, t, middle, right⟩
    · exact .inl ⟨number, same.trans same'⟩
    · exact .inr ⟨s, t, same.trans middle, right⟩
  · rcases second with ⟨_, same⟩ | ⟨_, t, _, right⟩
    · exact .inr ⟨s, t, left, same.symm.trans middle⟩
    · exact .inr ⟨s, t, left, right⟩

theorem beq_self_iff {x : Float} : (x == x) = true ↔ x.isNaN = false := by
  rw [beq_iff]
  constructor
  · rintro (⟨number, _⟩ | ⟨s, _, zero, _⟩)
    · exact number
    · rw [Float.isNaN, Float.Model.isNaN, zero]
      rfl
  · exact fun number => .inl ⟨number, rfl⟩

end Numeric

namespace Value

/-- Whether a value is NaN, or a pair or list that holds it. What a vector holds does not count. -/
def hasNaN : Value → Bool
  | .scalar _ (.real x) => x.isNaN
  | .pair _ first second => first.hasNaN || second.hasNaN
  | .cell _ head tail => head.hasNaN || tail.hasNaN
  | _ => false

section Laws

variable {vectors : Vectors} {R S : Value → Value → Prop} {u v w : Value}

/-! ## Symmetry -/

theorem Matches.converse (h : Matches vectors R v w) : Matches vectors (flip R) w v := by
  cases h with
  | nothing => exact .nothing
  | integer => exact .integer
  | real equal => exact .real (Numeric.beq_symm equal)
  | boolean => exact .boolean
  | string => exact .string
  | empty => exact .empty
  | pair first second => exact .pair first second
  | cell head tail => exact .cell head tail
  | sameVector => exact .sameVector
  | slots all => exact .slots all.flip
  | sameGenerator => exact .sameGenerator
  | sameProcedure same => exact .sameProcedure same.symm

theorem Bisimulation.converse (h : Bisimulation vectors R) : Bisimulation vectors (flip R) :=
  fun v w related => (h w v related).converse

theorem equal_symm (h : v.equal vectors w = true) : w.equal vectors v = true := by
  obtain ⟨R, bisimulation, related⟩ := (equal_iff_bisimilar vectors v w).mp h
  exact (equal_iff_bisimilar vectors w v).mpr ⟨flip R, bisimulation.converse, related⟩

/-! ## Transitivity -/

/-- Related by the first relation and then by the second one, or by one of the two alone. -/
def Chain (R S : Value → Value → Prop) (v w : Value) : Prop :=
  Relation.Comp R S v w ∨ R v w ∨ S v w

theorem forall₂_comp {us vs ws : List Value} (first : List.Forall₂ R us vs)
    (second : List.Forall₂ S vs ws) : List.Forall₂ (Relation.Comp R S) us ws := by
  induction first generalizing ws with
  | nil =>
    cases second
    exact .nil
  | cons here _ ih =>
    cases second with
    | cons there rest => exact .cons ⟨_, here, there⟩ (ih rest)

theorem Matches.chain (first : Matches vectors R u v) (second : Matches vectors S v w) :
    Matches vectors (Chain R S) u w := by
  cases first with
  | nothing => exact second.mono fun _ _ => .inr ∘ .inr
  | integer =>
    cases second
    exact .integer
  | real equal =>
    cases second with
    | real equal' => exact .real (Numeric.beq_trans equal equal')
  | boolean =>
    cases second
    exact .boolean
  | string =>
    cases second
    exact .string
  | empty => exact second.mono fun _ _ => .inr ∘ .inr
  | pair a b =>
    cases second with
    | pair c d => exact .pair (.inl ⟨_, a, c⟩) (.inl ⟨_, b, d⟩)
  | cell a b =>
    cases second with
    | cell c d => exact .cell (.inl ⟨_, a, c⟩) (.inl ⟨_, b, d⟩)
  -- A vector beside itself adds nothing: the other relation holds between the slots.
  | sameVector => exact second.mono fun _ _ => .inr ∘ .inr
  | slots all =>
    cases second with
    | sameVector => exact .slots (all.imp fun _ _ => .inr ∘ .inl)
    | slots all' => exact .slots ((forall₂_comp all all').imp fun _ _ => .inl)
  | sameGenerator =>
    cases second
    exact .sameGenerator
  | sameProcedure same =>
    cases second with
    | sameProcedure same' => exact .sameProcedure (same.trans same')

theorem Bisimulation.chain (first : Bisimulation vectors R) (second : Bisimulation vectors S) :
    Bisimulation vectors (Chain R S) := by
  rintro v w (⟨middle, left, right⟩ | related | related)
  · exact (first v middle left).chain (second middle w right)
  · exact (first v w related).mono fun _ _ => .inr ∘ .inl
  · exact (second v w related).mono fun _ _ => .inr ∘ .inr

theorem equal_trans (first : u.equal vectors v = true) (second : v.equal vectors w = true) :
    u.equal vectors w = true := by
  obtain ⟨R, bisimulation, left⟩ := (equal_iff_bisimilar vectors u v).mp first
  obtain ⟨S, bisimulation', right⟩ := (equal_iff_bisimilar vectors v w).mp second
  exact (equal_iff_bisimilar vectors u w).mpr
    ⟨Chain R S, bisimulation.chain bisimulation', .inl ⟨v, left, right⟩⟩

/-! ## Values beside themselves -/

theorem matches_self (free : v.hasNaN = false) :
    Matches vectors (fun a b => a = b ∧ a.hasNaN = false) v v := by
  cases v with
  | nothing => exact .nothing
  | scalar id contents =>
    cases contents with
    | integer n => exact .integer
    | real x => exact .real (Numeric.beq_self_iff.mpr free)
    | boolean b => exact .boolean
    | string s => exact .string
  | empty => exact .empty
  | pair id a b =>
    obtain ⟨first, second⟩ := Bool.or_eq_false_iff.mp free
    exact .pair ⟨rfl, first⟩ ⟨rfl, second⟩
  | cell id a b =>
    obtain ⟨head, tail⟩ := Bool.or_eq_false_iff.mp free
    exact .cell ⟨rfl, head⟩ ⟨rfl, tail⟩
  | vector id => exact .sameVector
  | generator id count source => exact .sameGenerator
  | procedure p => exact .sameProcedure rfl

/-- No bisimulation relates a value that holds NaN to itself. -/
theorem Bisimulation.hasNaN_eq_false (h : Bisimulation vectors R) (related : R v v) :
    v.hasNaN = false := by
  induction v with
  | scalar id contents =>
    cases h _ _ related with
    | real equal => exact Numeric.beq_self_iff.mp equal
    | _ => rfl
  | pair id a b first second =>
    obtain ⟨left, right⟩ := pair_matches_iff.mp (h _ _ related)
    exact Bool.or_eq_false_iff.mpr ⟨first left, second right⟩
  | cell id a b head tail =>
    obtain ⟨left, right⟩ := cell_matches_iff.mp (h _ _ related)
    exact Bool.or_eq_false_iff.mpr ⟨head left, tail right⟩
  | _ => rfl

theorem equal_self_iff : v.equal vectors v = true ↔ v.hasNaN = false := by
  rw [equal_iff_bisimilar]
  constructor
  · rintro ⟨R, bisimulation, related⟩
    exact bisimulation.hasNaN_eq_false related
  · intro free
    refine ⟨fun a b => a = b ∧ a.hasNaN = false, ?_, rfl, free⟩
    rintro a _ ⟨rfl, free⟩
    exact matches_self free

/-! ## Kinds -/

theorem Matches.kind?_eq (h : Matches vectors R v w) : v.kind? = w.kind? := by
  cases h <;> rfl

theorem kind?_eq_of_equal (h : v.equal vectors w = true) : v.kind? = w.kind? := by
  obtain ⟨R, bisimulation, related⟩ := (equal_iff_bisimilar vectors v w).mp h
  exact (bisimulation v w related).kind?_eq

end Laws

/-- Equality is symmetric and transitive. A value equals itself exactly when no NaN is in it or in
its pairs and lists; vectors always do. Values of different kinds are not equal. The two operators
always give a boolean, and never the same one. -/
theorem equal_partial_equivalence (vectors : Vectors) :
    (∀ v w : Value, v.equal vectors w = w.equal vectors v) ∧
    (∀ u v w : Value, u.equal vectors v = true → v.equal vectors w = true →
      u.equal vectors w = true) ∧
    (∀ v : Value, v.equal vectors v = true ↔ v.hasNaN = false) ∧
    (∀ v w : Value, v.kind? ≠ w.kind? → v.equal vectors w = false) ∧
    (∀ v w : Value, BinaryOp.equal.apply vectors v w = .ok (.boolean (v.equal vectors w)) ∧
      BinaryOp.notEqual.apply vectors v w = .ok (.boolean (!v.equal vectors w))) := by
  refine ⟨fun v w => ?_, fun u v w => equal_trans, fun v => equal_self_iff, fun v w differ => ?_,
    fun v w => ⟨rfl, rfl⟩⟩
  · exact Bool.eq_iff_iff.mpr ⟨equal_symm, equal_symm⟩
  · exact Bool.eq_false_iff.mpr fun equal => differ (kind?_eq_of_equal equal)

/-- A vector that holds itself, and two vectors that hold each other. -/
def threeLoops : Vectors := #[#[.vector 0], #[.vector 2], #[.vector 1]]

/-- All three are equal, and none of them equals a list. -/
theorem threeLoops_equal :
    equal threeLoops (.vector 1) (.vector 0) = true ∧
    equal threeLoops (.vector 0) (.vector 2) = true ∧
    equal threeLoops (.vector 1) (.vector 2) = true ∧
    kind? (.vector 1) ≠ kind? .empty ∧ equal threeLoops (.vector 1) .empty = false := by
  obtain ⟨_, trans, _, kinds, _⟩ := equal_partial_equivalence threeLoops
  have first : equal threeLoops (.vector 1) (.vector 0) = true := by decide
  have second : equal threeLoops (.vector 0) (.vector 2) = true := by decide
  have differ : kind? (.vector 1) ≠ kind? .empty := by decide
  exact ⟨first, second, trans _ _ _ first second, differ, kinds _ _ differ⟩

/-- NaN in a list makes it differ from itself, and NaN in a vector does not. -/
example : equal #[#[.scalar 0 (.real (0.0 / 0.0))]] (.cell 2 (.scalar 1 (.real (0.0 / 0.0))) .empty)
      (.cell 2 (.scalar 1 (.real (0.0 / 0.0))) .empty) = false ∧
    equal #[#[.scalar 0 (.real (0.0 / 0.0))]] (.vector 0) (.vector 0) = true := by
  decide

end Value

end Smpl
