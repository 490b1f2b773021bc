import Smpl.Numeric.RealText

/-!
# Numerals read back

Every 64-bit integer is read from its decimal form (`Numeric.readInt64_integerText`). Every finite
real has a JSON form (`Numeric.exists_jsonRealText`).
-/

namespace Smpl.Numeric

/-! ## Integers -/

theorem digitValue?_of_isDigit {c : Char} (digit : c.isDigit) :
    digitValue? c = some (c.toNat - '0'.toNat) := by
  have inside : '0' ≤ c ∧ c ≤ '9' := by
    simpa [Char.isDigit, Char.le_def] using digit
  rw [digitValue?, if_pos inside]
  rfl

/-- What was read before only grows as further digits are read. -/
theorem le_ofDigitChars (n : Nat) (cs : List Char) : n ≤ Nat.ofDigitChars 10 cs n := by
  rw [Nat.ofDigitChars_eq_ofDigitChars_zero]
  have positive : 0 < 10 ^ cs.length := Nat.pow_pos (by decide)
  calc n ≤ 10 ^ cs.length * n := Nat.le_mul_of_pos_left n positive
    _ ≤ _ := Nat.le_add_right _ _

theorem readDigits_eq_ok {cs : List Char} (digits : ∀ c ∈ cs, c.isDigit) {n : Nat}
    (fits : Nat.ofDigitChars 10 cs n < wordBound) :
    readDigits n cs = .ok (Nat.ofDigitChars 10 cs n) := by
  induction cs generalizing n with
  | nil => rw [readDigits, Nat.ofDigitChars_nil]
  | cons c cs ih =>
    obtain ⟨here, rest⟩ := List.forall_mem_cons.mp digits
    rw [Nat.ofDigitChars_cons] at fits ⊢
    have small : ¬ wordBound ≤ 10 * n + (c.toNat - '0'.toNat) :=
      Nat.not_le.mpr (Nat.lt_of_le_of_lt (le_ofDigitChars _ cs) fits)
    simp only [readDigits, digitValue?_of_isDigit here, if_neg small]
    exact ih rest fits

theorem digits_toDigits {n : Nat} : ∀ c ∈ Nat.toDigits 10 n, c.isDigit :=
  fun _ member => Nat.isDigit_of_mem_toDigits (by decide) (by decide) member

theorem readUnsigned_toDigits {n : Nat} (fits : n < wordBound) :
    readUnsigned (Nat.toDigits 10 n) = .ok n := by
  have value : Nat.ofDigitChars 10 (Nat.toDigits 10 n) 0 = n := Nat.ofDigitChars_ten_toDigits
  rw [readUnsigned, if_neg (by simp [Nat.toDigits_ne_nil]), readDigits_eq_ok digits_toDigits, value]
  rwa [value]

theorem int64Bound_lt_wordBound : int64Bound < wordBound := by decide

/-- A text that starts with a digit has no sign. -/
theorem readInt64_unsigned {cs : List Char} (digits : ∀ c ∈ cs, c.isDigit) {n : Nat}
    (value : readUnsigned cs = .ok n) (fits : n < int64Bound) :
    readInt64 cs = .ok (Int64.ofInt n) := by
  have head (sign : Char) (other : ¬ sign.isDigit) : cs.head? ≠ some sign :=
    fun found => other (digits sign (List.mem_of_mem_head? found))
  unfold readInt64
  split
  · exact absurd rfl (head '-' (by decide))
  · rw [if_neg (head '+' (by decide)), value]
    exact if_neg (Nat.not_le.mpr fits)

theorem readInt64_negative {cs : List Char} {n : Nat} (value : readUnsigned cs = .ok n)
    (fits : n ≤ int64Bound) : readInt64 ('-' :: cs) = .ok (Int64.ofInt (-n)) := by
  rw [readInt64, value]
  exact if_neg (Nat.not_lt.mpr fits)

theorem readInt64_integerText (n : Int64) : readInt64 (integerText n).toList = .ok n := by
  have least : -int64Bound ≤ n.toInt := n.le_toInt
  have greatest : n.toInt < int64Bound := n.toInt_lt
  have same : Int64.ofInt n.toInt = n := n.ofInt_toInt
  rw [integerText]
  cases sign : n.toInt with
  | ofNat m =>
    rw [sign] at greatest same
    have fits : m < int64Bound := Int.ofNat_lt.mp greatest
    have text : (toString (Int.ofNat m)).toList = Nat.toDigits 10 m := by
      change (toString m).toList = _
      rw [Nat.toString_eq_ofList_toDigits, String.toList_ofList]
    have value := readUnsigned_toDigits (Nat.lt_trans fits int64Bound_lt_wordBound)
    rw [text, readInt64_unsigned digits_toDigits value fits]
    exact congrArg _ same
  | negSucc m =>
    rw [sign] at least same
    have fits : m + 1 ≤ int64Bound := by omega
    have text : (toString (Int.negSucc m)).toList = '-' :: Nat.toDigits 10 (m + 1) := by
      change ("-" ++ toString (m + 1)).toList = _
      simp
    have value := readUnsigned_toDigits (Nat.lt_of_le_of_lt fits int64Bound_lt_wordBound)
    rw [text, readInt64_negative value fits]
    exact congrArg _ same

/-! ## Reals -/

open Float.Model (UnpackedFloat)

/-- Bits whose exponent is all ones are those of an infinity or of no number, whatever the fraction
is. -/
theorem unpack_of_exponent_ones {b : BitVec 64}
    (ones : @UnpackedFloat.unpackExponent .binary64 b = -1#11) :
    UnpackedFloat.unpack .binary64 b =
      if @UnpackedFloat.unpackMantissa .binary64 b = 0#52
        then .infinity (.ofBitVec (@UnpackedFloat.unpackSign .binary64 b))
        else .notANumber :=
  if_pos ones

/-- The exponent bits of a finite double are not all set. -/
theorem exponentField_ne_of_isFinite {x : Float} (finite : x.isFinite) :
    x.toBits.toNat / leastNormal % 2048 ≠ 2047 := by
  intro ones
  have field : @UnpackedFloat.unpackExponent .binary64 x.toBits.toBitVec = -1#11 := by
    apply BitVec.eq_of_toNat_eq
    simpa [UnpackedFloat.unpackExponent, BitVec.extractLsb, BitVec.extractLsb',
      Nat.shiftRight_eq_div_pow, leastNormal] using ones
  have unpacked : (UnpackedFloat.unpack .binary64 x.toBits.toBitVec).isFinite = true := finite
  rw [unpack_of_exponent_ones field] at unpacked
  split at unpacked <;> cases unpacked

theorem exists_jsonRealText {x : Float} (finite : x.isFinite) : ∃ t, jsonRealText? x = some t := by
  have field := exponentField_ne_of_isFinite finite
  have parts : ∃ negative m q, Parts.ofFloat x = .finite negative m q := by
    simp only [Parts.ofFloat, Parts.ofBits]
    rw [if_neg (by simpa using field)]
    split
    · exact ⟨_, _, _, rfl⟩
    · exact ⟨_, _, _, rfl⟩
  obtain ⟨negative, m, q, parts⟩ := parts
  exact ⟨String.ofList (Layout.json.realChars x), by rw [jsonRealText?, parts]⟩

end Smpl.Numeric
