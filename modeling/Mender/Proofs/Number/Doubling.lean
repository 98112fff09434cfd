import Mender.Proofs.Number.Whole

/-! Doubling. Twice a count is a count, so nothing is rounded where a number is doubled: it is exact until
it is too large for a number. The power of two by which it is multiplied is too large itself from 2^1024
on, and has no limit then. -/

namespace Mender.Number

/-- `i` times doubled, by one multiplication. -/
inductive Doubled (i : Nat) : Number → Number → Prop where
  | nan : Doubled i .nan .nan
  | infinite (negative : Bool) : Doubled i (.infinite negative) (.infinite negative)
  | exact {c : Int} {hc hd} (within : i < 1024) : Doubled i (.finite c hc) (.finite (c * (2 ^ i : Nat)) hd)
  | tooLarge {c : Int} {hc} (within : i < 1024) (large : stepsLimit ≤ c.natAbs * 2 ^ i) :
      Doubled i (.finite c hc) (.infinite (c < 0))
  | beyond {c : Int} {hc} (past : 1024 ≤ i) (nonzero : c ≠ 0) :
      Doubled i (.finite c hc) (.infinite (c < 0))
  /-- Zero times what has no limit. -/
  | zero {hc} (past : 1024 ≤ i) : Doubled i (.finite 0 hc) .nan

theorem isCount_mul_two_pow {n i : Nat} (h : IsCount n) (below : n * 2 ^ i < stepsLimit) :
    IsCount (n * 2 ^ i) := by
  refine ⟨below, ?_⟩
  rcases Nat.eq_zero_or_pos n with rfl | positive
  · simp
  have product : n * 2 ^ i ≠ 0 := Nat.ne_of_gt (Nat.mul_pos positive (Nat.two_pow_pos i))
  have longer : (n * 2 ^ i).log2 < n.log2 + 1 + i := by
    rw [Nat.log2_lt product, Nat.pow_add]
    exact Nat.mul_lt_mul_of_pos_right Nat.lt_log2_self (Nat.two_pow_pos i)
  have bits : 2 ^ ((n * 2 ^ i).log2 - 52) ∣ 2 ^ (n.log2 - 52 + i) := Nat.pow_dvd_pow 2 (by omega)
  rw [Nat.pow_add] at bits
  exact Nat.dvd_trans bits (Nat.mul_dvd_mul_right h.2 _)

/-- What is too large before it is rounded stays so. -/
theorem ofSteps_of_large {num den : Nat} (positive : 0 < den) (large : stepsLimit ≤ num / den)
    (negative : Bool) : ofSteps negative num den = .infinite negative := by
  have past : ¬ roundCount num den < stepsLimit := Nat.not_lt.2 (two_pow_le_roundCount large)
  rw [ofSteps, dif_pos positive, dif_neg past]

section TwoPow

variable {i : Nat}

theorem two_pow_mul_stepsPerOne (i : Nat) : 2 ^ i * stepsPerOne = 2 ^ (i + stepBits) :=
  (Nat.pow_add 2 i stepBits).symm

/-- The powers of two that are not too large are numbers. -/
theorem isCount_two_pow (h : i < 1024) : IsCount (((2 ^ i : Nat) : Int) * stepsPerOne).natAbs := by
  have size : (((2 ^ i : Nat) : Int) * stepsPerOne).natAbs = 2 ^ (i + stepBits) :=
    (Int.natAbs_mul _ _).trans (two_pow_mul_stepsPerOne i)
  rw [size]
  refine ⟨Nat.pow_lt_pow_right (by decide) (by omega), ?_⟩
  rw [Nat.log2_two_pow]
  exact Nat.pow_dvd_pow 2 (Nat.sub_le _ _)

theorem ofNat_two_pow_of_le (h : 1024 ≤ i) : ofNat (2 ^ i) = .infinite false := by
  have large : stepsLimit ≤ 2 ^ i * stepsPerOne / 1 := by
    rw [Nat.div_one, two_pow_mul_stepsPerOne]
    exact Nat.pow_le_pow_right (by decide) (by omega)
  have sign : ¬ ((2 ^ i : Nat) : Int) < 0 := Int.not_lt.2 (Int.natCast_nonneg _)
  rw [ofNat, ofInt, Int.natAbs_natCast, ofSteps_of_large Nat.one_pos large, decide_eq_false sign]

end TwoPow

section Product

variable {c : Int} {k i : Nat} {hc : IsCount c.natAbs}

/-- The product with a whole number is rounded once. -/
theorem finite_mul_whole {hk : IsCount ((k : Int) * stepsPerOne).natAbs} :
    finite c hc * finite (k * stepsPerOne) hk =
      ofSteps (c < 0) (c.natAbs * k * stepsPerOne) stepsPerOne := by
  have sign : ¬ (k : Int) * stepsPerOne < 0 :=
    Int.not_lt.2 (Int.mul_nonneg (Int.natCast_nonneg k) (Int.natCast_nonneg _))
  change ofSteps _ _ _ = _
  rw [decide_eq_false sign, Bool.bne_false, Int.natAbs_mul, Int.natAbs_natCast, Int.natAbs_natCast,
    Nat.mul_assoc]

theorem doubled_finite (within : i < 1024) :
    Doubled i (.finite c hc) (finite c hc * ofNat (2 ^ i)) := by
  rw [ofNat, ofInt_eq (isCount_two_pow within), finite_mul_whole]
  rcases Nat.lt_or_ge (c.natAbs * 2 ^ i) stepsLimit with below | large
  · have size : (c * (2 ^ i : Nat)).natAbs = c.natAbs * 2 ^ i := Int.natAbs_mul c (2 ^ i : Nat)
    have sign : c * (2 ^ i : Nat) < 0 ↔ c < 0 := by
      have positive : (0 : Int) < (2 ^ i : Nat) := Int.natCast_pos.2 (Nat.two_pow_pos i)
      simpa only [Int.zero_mul] using Int.mul_lt_mul_right (b := c) (c := 0) positive
    have count : IsCount (c * (2 ^ i : Nat)).natAbs := size ▸ isCount_mul_two_pow hc below
    rw [← size, decide_eq_decide.2 sign.symm, ofSteps_of_isCount stepsPerOne_pos count]
    exact .exact within
  · rw [ofSteps_of_large stepsPerOne_pos (by rwa [Nat.mul_div_cancel _ stepsPerOne_pos])]
    exact .tooLarge within large

theorem infinite_mul_finite (positive : 0 < c) (negative : Bool) :
    .infinite negative * finite c hc = .infinite negative := by
  have nonzero : c ≠ 0 := Int.ne_of_gt positive
  have sign : ¬ c < 0 := Int.not_lt.2 (Int.le_of_lt positive)
  change mul _ _ = _
  simp [mul, isZero, isNegative, nonzero, sign]

theorem finite_mul_infinite :
    finite c hc * .infinite false = if c = 0 then .nan else .infinite (c < 0) := by
  change mul _ _ = _
  simp [mul, isZero, isNegative]

theorem infinite_mul_infinite (negative : Bool) :
    Number.infinite negative * .infinite false = .infinite negative := by
  change mul _ _ = _
  simp [mul, isZero, isNegative]

theorem nan_mul (x : Number) : .nan * x = .nan := by
  change mul _ _ = _
  simp [mul]

end Product

/-- One multiplication with `2 ^ i` doubles a number `i` times. -/
theorem doubled_mul (b : Number) (i : Nat) : Doubled i b (b * ofNat (2 ^ i)) := by
  cases b with
  | nan =>
    rw [nan_mul]
    exact .nan
  | infinite negative =>
    have same : .infinite negative * ofNat (2 ^ i) = .infinite negative := by
      rcases Nat.lt_or_ge i 1024 with within | past
      · rw [ofNat, ofInt_eq (isCount_two_pow within)]
        exact infinite_mul_finite (Int.mul_pos (Int.natCast_pos.2 (Nat.two_pow_pos i))
          (Int.natCast_pos.2 stepsPerOne_pos)) negative
      · rw [ofNat_two_pow_of_le past, infinite_mul_infinite]
    rw [same]
    exact .infinite negative
  | finite c hc =>
    rcases Nat.lt_or_ge i 1024 with within | past
    · exact doubled_finite within
    · rw [ofNat_two_pow_of_le past, finite_mul_infinite]
      split
      case isTrue zero =>
        subst zero
        exact .zero past
      case isFalse nonzero => exact .beyond past nonzero

end Mender.Number
