import Mathlib.Algebra.Order.Group.Unbundled.Int
import Mathlib.Data.Int.ModEq
import Mathlib.Data.Nat.Size
import Mathlib.Logic.Function.Iterate
import Mathlib.Tactic.Positivity
import Smpl.Value.Operators

/-!
# Powers, quotients and remainders of integers

Integers have 64 bits, and an operation that leaves this range wraps.

* A power is taken by squaring. No turn of the loop changes, modulo `2 ^ 64`, what the loop comes to
  (`PowerLoop.product_turn`): the result so far times the base to the exponent that is left. So it
  does not matter which products wrap, nor that the base is squared once more than it is used.
* The loop takes one turn for every binary digit of the exponent
  (`PowerLoop.exponent_iterate_pos_iff`), which are 63 at most.
* A quotient and a remainder fit together, and the remainder is smaller than the divisor and has the
  sign of the dividend (`DividesTowardZero`). This makes the quotient the truncated one
  (`DividesTowardZero.truncated`), with one exception: the least integer divided by `-1`.

Main results: `power_wraps`, `quotient_fits_remainder`.
-/

namespace Smpl

/-! ## Wrapping -/

theorem toInt_mul_modEq (a b : Int64) : (a * b).toInt ≡ a.toInt * b.toInt [ZMOD 2 ^ 64] := by
  rw [Int64.toInt_mul]
  exact Int.bmod_emod

theorem toInt_div_modEq (a b : Int64) : (a / b).toInt ≡ a.toInt.tdiv b.toInt [ZMOD 2 ^ 64] := by
  rw [Int64.toInt_div]
  exact Int.bmod_emod

theorem toInt_eq_bmod {a : Int64} {n : ℤ} (same : a.toInt ≡ n [ZMOD 2 ^ 64]) :
    a.toInt = n.bmod (2 ^ 64) := by
  have wrapped : (a.toInt % (2 ^ 64 : ℕ)).bmod (2 ^ 64) = (n % (2 ^ 64 : ℕ)).bmod (2 ^ 64) :=
    congrArg (Int.bmod · (2 ^ 64)) same
  rw [Int.emod_bmod, Int.emod_bmod] at wrapped
  exact (Int64.toInt_bmod a).symm.trans wrapped

/-- The last binary digit tells the odd integers, also below zero. -/
theorem and_one_eq_one_iff (a : Int64) : a &&& 1 = 1 ↔ a.toInt % 2 = 1 := by
  have digit : (a &&& 1).toBitVec.toNat = a.toBitVec.toNat % 2 := by
    rw [Int64.toBitVec_and, BitVec.toNat_and]
    exact Nat.and_one_is_mod _
  have parity : a.toInt % 2 = a.toBitVec.toNat % 2 := by
    rw [← Int64.toInt_toBitVec, BitVec.toInt_eq_toNat_cond]
    split <;> omega
  rw [← Int64.toBitVec_inj, ← BitVec.toNat_inj, digit, parity]
  change a.toBitVec.toNat % 2 = 1 ↔ _
  omega

/-! ## Powers by squaring -/

namespace PowerLoop

variable {s : PowerLoop}

/-- What a loop comes to when nothing wraps. -/
def product (s : PowerLoop) : ℤ := s.result.toInt * s.base.toInt ^ s.exponent.toInt.toNat

/-- How many turns a loop takes. -/
def turns (s : PowerLoop) : ℕ := s.exponent.toInt.toNat.size

theorem result_turn (nonneg : 0 ≤ s.exponent.toInt) :
    s.turn.result.toInt ≡ s.result.toInt * s.base.toInt ^ (s.exponent.toInt.toNat % 2)
      [ZMOD 2 ^ 64] := by
  by_cases odd : s.exponent.toInt % 2 = 1
  · have last : s.exponent.toInt.toNat % 2 = 1 := by omega
    rw [turn, if_pos ((and_one_eq_one_iff _).mpr odd), last, pow_one]
    exact toInt_mul_modEq _ _
  · have last : s.exponent.toInt.toNat % 2 = 0 := by omega
    rw [turn, if_neg (mt (and_one_eq_one_iff _).mp odd), last, pow_zero, mul_one]

theorem product_turn (nonneg : 0 ≤ s.exponent.toInt) :
    s.turn.product ≡ s.product [ZMOD 2 ^ 64] := by
  have halved : s.turn.exponent.toInt.toNat = s.exponent.toInt.toNat / 2 := by
    rw [toInt_turn_exponent]
    omega
  calc s.turn.product
      = s.turn.result.toInt * s.turn.base.toInt ^ (s.exponent.toInt.toNat / 2) := by
        rw [product, halved]
    _ ≡ s.result.toInt * s.base.toInt ^ (s.exponent.toInt.toNat % 2) *
          (s.base.toInt * s.base.toInt) ^ (s.exponent.toInt.toNat / 2) [ZMOD 2 ^ 64] :=
        (result_turn nonneg).mul ((toInt_mul_modEq _ _).pow _)
    _ = s.product := by
        rw [product, mul_assoc, ← sq, ← pow_mul, ← pow_add, Nat.mod_add_div]

theorem toInt_iterate_exponent (s : PowerLoop) (n : ℕ) :
    (turn^[n] s).exponent.toInt = s.exponent.toInt / 2 ^ n := by
  induction n with
  | zero => simp
  | succ n ih =>
    have positive : (0 : ℤ) ≤ 2 ^ n := by positivity
    rw [Function.iterate_succ_apply', toInt_turn_exponent, ih, Int.ediv_ediv_of_nonneg positive,
      pow_succ]

theorem product_iterate (nonneg : 0 ≤ s.exponent.toInt) (n : ℕ) :
    (turn^[n] s).product ≡ s.product [ZMOD 2 ^ 64] := by
  induction n with
  | zero => rfl
  | succ n ih =>
    -- Only a negative exponent could be odd without a factor that is missing, and none comes up.
    have still : 0 ≤ (turn^[n] s).exponent.toInt := by
      rw [toInt_iterate_exponent]
      exact Int.ediv_nonneg nonneg (by positivity)
    rw [Function.iterate_succ_apply']
    exact (product_turn still).trans ih

theorem exponent_iterate_pos_iff (nonneg : 0 ≤ s.exponent.toInt) (n : ℕ) :
    0 < (turn^[n] s).exponent ↔ n < s.turns := by
  have positive : (0 : ℤ) < 2 ^ n := by positivity
  rw [Int64.lt_iff_toInt_lt, toInt_iterate_exponent, turns, Nat.lt_size, Int.le_toNat nonneg,
    Int64.toInt_zero, Int.lt_iff_add_one_le, zero_add, Int.le_ediv_iff_mul_le positive, one_mul]
  norm_cast

theorem run_iterate {n : ℕ} (going : ∀ k < n, 0 < (turn^[k] s).exponent) :
    s.run = (turn^[n] s).run := by
  induction n with
  | zero => rfl
  | succ n ih =>
    rw [ih fun k earlier => going k (by omega), run, if_pos (going n (by omega)),
      Function.iterate_succ_apply']

/-- A loop gives what stands in the result after its last turn. -/
theorem run_eq_result (nonneg : 0 ≤ s.exponent.toInt) : s.run = (turn^[s.turns] s).result := by
  have going : ∀ k < s.turns, 0 < (turn^[k] s).exponent := fun k earlier =>
    (exponent_iterate_pos_iff nonneg k).mpr earlier
  have ended : ¬ 0 < (turn^[s.turns] s).exponent := fun more =>
    absurd ((exponent_iterate_pos_iff nonneg _).mp more) (lt_irrefl _)
  rw [run_iterate going, run, if_neg ended]

theorem result_modEq (nonneg : 0 ≤ s.exponent.toInt) :
    (turn^[s.turns] s).result.toInt ≡ s.product [ZMOD 2 ^ 64] := by
  have ended : (turn^[s.turns] s).exponent.toInt.toNat = 0 := by
    have := mt (exponent_iterate_pos_iff nonneg s.turns).mp (lt_irrefl _)
    rw [Int64.lt_iff_toInt_lt, Int64.toInt_zero] at this
    omega
  have last : (turn^[s.turns] s).product = (turn^[s.turns] s).result.toInt := by
    rw [product, ended, pow_zero, mul_one]
  exact last ▸ product_iterate nonneg s.turns

theorem turns_le (s : PowerLoop) : s.turns ≤ 63 := by
  have below := s.exponent.toInt_lt
  rw [turns, Nat.size_le]
  omega

end PowerLoop

/-- An integer has an integer power for every exponent that is not negative: the loop goes on for at
most 63 turns and then ends, and its result is the power modulo `2 ^ 64`, as a signed integer. -/
theorem power_wraps (vectors : Vectors) (i j : ObjectId) (base exponent : Int64)
    (nonneg : 0 ≤ exponent) :
    ∃ turns ≤ 63,
      (∀ n, 0 < (PowerLoop.turn^[n] ⟨1, base, exponent⟩).exponent ↔ n < turns) ∧
      BinaryOp.pow.apply vectors (.scalar i (.integer base)) (.scalar j (.integer exponent)) =
        .ok (.integer (PowerLoop.turn^[turns] ⟨1, base, exponent⟩).result) ∧
      (PowerLoop.turn^[turns] ⟨1, base, exponent⟩).result.toInt =
        (base.toInt ^ exponent.toInt.toNat).bmod (2 ^ 64) := by
  let s : PowerLoop := ⟨1, base, exponent⟩
  have natural : 0 ≤ s.exponent.toInt := Int64.le_iff_toInt_le.mp nonneg
  have start : s.product = base.toInt ^ exponent.toInt.toNat := one_mul _
  refine ⟨s.turns, s.turns_le, PowerLoop.exponent_iterate_pos_iff natural, ?_, ?_⟩
  · change Except.ok (integerPower base exponent) = _
    rw [integerPower, if_neg (Int64.not_lt.mpr nonneg)]
    exact congrArg (Except.ok ∘ Scalar.integer) (PowerLoop.run_eq_result natural)
  · exact toInt_eq_bmod (start ▸ PowerLoop.result_modEq natural)

theorem power_wraps_ten_nineteen :
    (0 : Int64) ≤ 19 ∧
      BinaryOp.pow.apply #[] (.scalar 0 (.integer 10)) (.scalar 1 (.integer 19)) =
        .ok (.integer (-8446744073709551616)) := by
  refine ⟨by decide, ?_⟩
  obtain ⟨turns, -, -, applied, power⟩ := power_wraps #[] 0 1 10 19 (by decide)
  have wrapped : ((10 : Int64).toInt ^ (19 : Int64).toInt.toNat).bmod (2 ^ 64) =
      (-8446744073709551616 : Int64).toInt := by decide
  rw [applied, Int64.toInt_inj.mp (power.trans wrapped)]

/-! ## Quotients and remainders -/

/-- The outcome of an operation is an arithmetic error. -/
def FailsArithmetically (outcome : Except Failure Scalar) : Prop :=
  ∃ f, outcome = .error f ∧ f.kind? = some .arithmeticError

/-- The quotient is one more than the greatest integer. -/
def QuotientOverflows (a b : Int64) : Prop := a = Int64.minValue ∧ b = -1

/-- The quotient `q` and the remainder `r` of a division of `a` by `b` toward zero. -/
structure DividesTowardZero (a b q r : Int64) : Prop where
  wrapped : a.toInt ≡ q.toInt * b.toInt + r.toInt [ZMOD 2 ^ 64]
  unwrapped : ¬ QuotientOverflows a b → a.toInt = q.toInt * b.toInt + r.toInt
  overflow : QuotientOverflows a b → q = Int64.minValue ∧ r = 0
  remainder_lt : |r.toInt| < |b.toInt|
  remainder_sign : r = 0 ∨ r.toInt.sign = a.toInt.sign

section Division

variable {a b q r : Int64}

theorem failsArithmetically_ite_iff {p : Prop} [Decidable p] {f : Failure}
    (kind : f.kind? = some .arithmeticError) (contents : Scalar) :
    FailsArithmetically (if p then .error f else .ok contents) ↔ p := by
  by_cases h : p
  · rw [if_pos h]
    exact iff_of_true ⟨f, rfl, kind⟩ h
  · rw [if_neg h]
    refine iff_of_false ?_ h
    rintro ⟨_, failed, _⟩
    cases failed

theorem toInt_div_of_not_overflows (small : ¬ QuotientOverflows a b) :
    (a / b).toInt = a.toInt.tdiv b.toInt := by
  by_cases least : a = Int64.minValue
  · exact Int64.toInt_div_of_ne_right a b fun minus => small ⟨least, minus⟩
  · exact Int64.toInt_div_of_ne_left a b least

theorem dividesTowardZero_div_mod (nonzero : b ≠ 0) : DividesTowardZero a b (a / b) (a % b) where
  wrapped := by
    calc a.toInt
        = a.toInt.tdiv b.toInt * b.toInt + a.toInt.tmod b.toInt :=
          (Int.tdiv_mul_add_tmod _ _).symm
      _ ≡ (a / b).toInt * b.toInt + (a % b).toInt [ZMOD 2 ^ 64] := by
          rw [Int64.toInt_mod]
          exact ((toInt_div_modEq a b).symm.mul_right _).add_right _
  unwrapped small := by
    rw [toInt_div_of_not_overflows small, Int64.toInt_mod, Int.tdiv_mul_add_tmod]
  overflow := by
    rintro ⟨rfl, rfl⟩
    exact ⟨Int64.minValue_div_neg_one, by decide⟩
  remainder_lt := by
    have positive : 0 < b.toInt.natAbs :=
      Int.natAbs_pos.mpr fun zero => nonzero (Int64.toInt_inj.mp zero)
    rw [Int64.toInt_mod, Int.abs_eq_natAbs, Int.abs_eq_natAbs, Int.natAbs_tmod]
    exact Int.ofNat_lt.mpr (Nat.mod_lt _ positive)
  remainder_sign := by
    rw [← Int64.toInt_inj, Int64.toInt_mod, Int.sign_tmod]
    by_cases divides : b.toInt ∣ a.toInt
    · exact .inl (Int.tmod_eq_zero_of_dvd divides)
    · exact .inr (if_neg divides)

namespace DividesTowardZero

theorem divisor_ne_zero (divided : DividesTowardZero a b q r) : b.toInt ≠ 0 :=
  abs_pos.mp ((abs_nonneg _).trans_lt divided.remainder_lt)

theorem remainder_nonneg (divided : DividesTowardZero a b q r) (nonneg : 0 ≤ a.toInt) :
    0 ≤ r.toInt := by
  rcases divided.remainder_sign with rfl | same
  · exact le_refl 0
  · rwa [← Int.sign_nonneg_iff, same, Int.sign_nonneg_iff]

theorem remainder_nonpos (divided : DividesTowardZero a b q r) (nonpos : a.toInt ≤ 0) :
    r.toInt ≤ 0 := by
  rcases divided.remainder_sign with rfl | same
  · exact le_refl 0
  · rwa [← Int.sign_nonpos_iff, same, Int.sign_nonpos_iff]

/-- What a division satisfies leaves only one quotient. -/
theorem truncated (divided : DividesTowardZero a b q r) (small : ¬ QuotientOverflows a b) :
    q.toInt = a.toInt.tdiv b.toInt := by
  have parts : r.toInt + b.toInt * q.toInt = a.toInt := by
    rw [divided.unwrapped small, Int.add_comm, Int.mul_comm]
  have bound : |r.toInt| < b.toInt.natAbs := by
    rw [← Int.abs_eq_natAbs]
    exact divided.remainder_lt
  obtain ⟨above, below⟩ := abs_lt.mp bound
  have nonzero := divided.divisor_ne_zero
  -- Two remainders may lie within the divisor; the sign of the dividend picks one of them.
  rcases le_total 0 a.toInt with nonneg | nonpos
  · have remainder := divided.remainder_nonneg nonneg
    exact ((Int.tdiv_tmod_unique nonneg nonzero).mpr ⟨parts, remainder, below⟩).1.symm
  · have remainder := divided.remainder_nonpos nonpos
    exact ((Int.tdiv_tmod_unique' nonpos nonzero).mpr ⟨parts, above, remainder⟩).1.symm

end DividesTowardZero

end Division

/-- The quotient and the remainder of two integers fail for the divisor zero, with an arithmetic
error, and for no other. Else the two fit together, and the quotient is truncated toward zero. -/
theorem quotient_fits_remainder (i j : ObjectId) (a b : Int64) :
    (FailsArithmetically (quotient (.scalar i (.integer a)) (.scalar j (.integer b))) ↔ b = 0) ∧
      (FailsArithmetically (modulus (.scalar i (.integer a)) (.scalar j (.integer b))) ↔ b = 0) ∧
      (b ≠ 0 → ∃ q r : Int64,
        quotient (.scalar i (.integer a)) (.scalar j (.integer b)) = .ok (.integer q) ∧
          modulus (.scalar i (.integer a)) (.scalar j (.integer b)) = .ok (.integer r) ∧
          DividesTowardZero a b q r ∧
          (¬ QuotientOverflows a b → q.toInt = a.toInt.tdiv b.toInt)) := by
  refine ⟨failsArithmetically_ite_iff rfl _, failsArithmetically_ite_iff rfl _, fun nonzero => ?_⟩
  have divided : DividesTowardZero a b (a / b) (a % b) := dividesTowardZero_div_mod nonzero
  exact ⟨a / b, a % b, if_neg nonzero, if_neg nonzero, divided, divided.truncated⟩

theorem quotient_fits_remainder_least :
    (-1 : Int64) ≠ 0 ∧
      quotient (.scalar 0 (.integer Int64.minValue)) (.scalar 1 (.integer (-1))) =
        .ok (.integer Int64.minValue) ∧
      modulus (.scalar 0 (.integer Int64.minValue)) (.scalar 1 (.integer (-1))) =
        .ok (.integer 0) := by
  refine ⟨by decide, ?_⟩
  obtain ⟨q, r, divided, reduced, fit, -⟩ :=
    (quotient_fits_remainder 0 1 Int64.minValue (-1)).2.2 (by decide)
  obtain ⟨rfl, rfl⟩ := fit.overflow ⟨rfl, rfl⟩
  exact ⟨divided, reduced⟩

end Smpl
