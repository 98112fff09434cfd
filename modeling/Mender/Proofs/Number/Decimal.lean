import Mathlib.Algebra.Field.Rat
import Mathlib.Algebra.GroupWithZero.Basic
import Mathlib.Algebra.Order.Ring.Rat
import Mathlib.Data.Rat.Cast.Defs
import Mathlib.Tactic.FieldSimp
import Mathlib.Tactic.Ring
import Mender.Number.Shortest
import Mender.Proofs.Number.Doubling
import Mender.Proofs.Number.Quotient

/-! Decimals by their value. Rounding sees nothing of a quotient but its value, so decimals of one value, with
their digits and exponents however chosen, are rounded to one number. -/

namespace Mender

namespace Number

section Scale

variable {k num den num' den' : Nat}

theorem roundDiv_mul_left (positive : 0 < k) (num den : Nat) :
    roundDiv (k * num) (k * den) = roundDiv num den := by
  have double : 2 * (k * (num % den)) = k * (2 * (num % den)) := by ac_rfl
  unfold roundDiv
  dsimp only
  simp only [Nat.mul_div_mul_left _ _ positive, Nat.mul_mod_mul_left, double, Nat.mul_lt_mul_left positive,
    Nat.mul_right_inj (Nat.ne_of_gt positive)]

theorem roundCount_mul_left (positive : 0 < k) (num den : Nat) :
    roundCount (k * num) (k * den) = roundCount num den := by
  unfold roundCount
  dsimp only
  rw [Nat.mul_div_mul_left _ _ positive, Nat.mul_assoc, roundDiv_mul_left positive]

/-- Equal quotients are rounded to one count. -/
theorem roundCount_eq_of_mul_eq (hd : 0 < den) (hd' : 0 < den') (h : num * den' = num' * den) :
    roundCount num den = roundCount num' den' :=
  calc roundCount num den = roundCount (den' * num) (den' * den) := (roundCount_mul_left hd' num den).symm
    _ = roundCount (den * num') (den * den') := by
      rw [Nat.mul_comm den' num, h, Nat.mul_comm num' den, Nat.mul_comm den' den]
    _ = roundCount num' den' := roundCount_mul_left hd num' den'

end Scale

end Number

namespace Decimal

def value (d : Decimal) : ℚ := d.digits * 10 ^ d.exponent

def numerator (d : Decimal) : Nat := d.digits * 10 ^ d.exponent.toNat

def denominator (d : Decimal) : Nat := 10 ^ (-d.exponent).toNat

variable (d : Decimal) {d' : Decimal}

theorem denominator_pos : 0 < d.denominator := Nat.pow_pos (by decide)

theorem numerator_eq : (d.numerator : ℚ) = d.value * d.denominator := by
  have split : d.exponent = d.exponent.toNat - (-d.exponent).toNat := (Int.toNat_sub_toNat_neg _).symm
  have scale : (10 : ℚ) ^ d.exponent * 10 ^ (-d.exponent).toNat = 10 ^ d.exponent.toNat := by
    rw [← zpow_natCast, ← zpow_natCast, ← zpow_add₀ (by norm_num)]
    congr 1
    omega
  rw [numerator, value, denominator]
  push_cast
  rw [mul_assoc, scale]

theorem count_eq : d.count = Number.roundCount (d.numerator * stepsPerOne) d.denominator := by
  unfold count numerator denominator
  split
  case isTrue low => rw [Int.toNat_of_nonpos (by omega : -d.exponent ≤ 0), Nat.pow_zero]
  case isFalse low => rw [Int.toNat_of_nonpos (by omega : d.exponent ≤ 0), Nat.pow_zero, Nat.mul_one]

theorem ofDecimal_eq : Number.ofDecimal false d.digits d.exponent =
    .ofSteps false (d.numerator * stepsPerOne) d.denominator := by
  unfold Number.ofDecimal numerator denominator
  split
  case isTrue low => rw [Int.toNat_of_nonpos (by omega : -d.exponent ≤ 0), Nat.pow_zero]
  case isFalse low => rw [Int.toNat_of_nonpos (by omega : d.exponent ≤ 0), Nat.pow_zero, Nat.mul_one]

variable {d}

theorem count_eq_of_value_eq (h : d.value = d'.value) : d.count = d'.count := by
  have cross : d.numerator * d'.denominator = d'.numerator * d.denominator := by
    have : (d.numerator * d'.denominator : ℚ) = d'.numerator * d.denominator := by
      rw [numerator_eq, numerator_eq, h]
      ring
    exact_mod_cast this
  rw [count_eq, count_eq]
  refine Number.roundCount_eq_of_mul_eq d.denominator_pos d'.denominator_pos ?_
  rw [Nat.mul_right_comm, cross, Nat.mul_right_comm]

theorem count_eq_zero (h : d.digits = 0) : d.count = 0 := by
  rw [count_eq, numerator, h, Nat.zero_mul, Nat.zero_mul, Number.roundCount, Number.roundDiv]
  simp [d.denominator_pos]

theorem two_pow_le_ten_pow {e k : Nat} (h : e ≤ 3 * k) : 2 ^ e ≤ 10 ^ k :=
  calc 2 ^ e ≤ 2 ^ (3 * k) := Nat.pow_le_pow_right (by decide) h
    _ = (2 ^ 3) ^ k := Nat.pow_mul 2 3 k
    _ ≤ 10 ^ k := Nat.pow_le_pow_left (by decide) k

theorem exponent_le (given : d.digits ≠ 0) (h : d.count < stepsLimit) : d.exponent ≤ 400 := by
  by_contra large
  have ten : 2 ^ 1024 ≤ 10 ^ d.exponent.toNat := two_pow_le_ten_pow (by omega)
  have numerator : 2 ^ 1024 ≤ d.numerator := ten.trans (Nat.le_mul_of_pos_left _ (Nat.pos_of_ne_zero given))
  have denominator : d.denominator = 1 := by
    rw [Decimal.denominator, Int.toNat_of_nonpos (by omega), Nat.pow_zero]
  have past : stepsLimit ≤ d.count := by
    rw [count_eq, denominator, stepsLimit]
    refine Number.two_pow_le_roundCount ?_
    rw [Nat.div_one, ← Number.two_pow_mul_stepsPerOne]
    exact Nat.mul_le_mul_right _ numerator
  exact absurd h (Nat.not_lt.2 past)

end Decimal

def Numeral.decimal (n : Numeral) : Decimal where
  digits := readDecimal (n.whole ++ n.fraction)
  exponent := n.exponent - n.fraction.length

namespace Number

theorem ofSteps_of_roundCount {num den c : Nat} (positive : 0 < den) (h : roundCount num den = c)
    (hc : IsCount c) : ofSteps false num den = .finite c hc := by
  subst h
  simp [ofSteps, dif_pos positive, dif_pos hc.1]

theorem ofNumeral_of_count {n : Numeral} {c : Nat} (hc : IsCount c) (positive : 0 < c)
    (count : n.decimal.count = c) (exponent : 0 ≤ n.exponent) : ofNumeral false n = .finite c hc := by
  have given : n.decimal.digits ≠ 0 := by
    intro none
    rw [Decimal.count_eq_zero none] at count
    omega
  have high : ¬ 400 < n.exponent - n.fraction.length :=
    Int.not_lt.2 (Decimal.exponent_le given (count ▸ hc.1))
  have low : ¬ n.exponent - n.fraction.length < -400 - (n.whole.length + n.fraction.length) := by omega
  have read : ofNumeral false n = ofDecimal false n.decimal.digits n.decimal.exponent :=
    (if_neg given).trans ((if_neg high).trans (if_neg low))
  rw [read, Decimal.ofDecimal_eq]
  exact ofSteps_of_roundCount n.decimal.denominator_pos (n.decimal.count_eq ▸ count) hc

end Number
end Mender
