import Mathlib.Tactic.GCongr
import Mathlib.Tactic.Ring
import Mender.Proofs.Number.Whole

/-! Quotients of whole numbers. A quotient is rounded, but never as far as a whole number: below 2^53,
rounding it up comes to the same as rounding up the exact one. -/

namespace Mender.Number

theorem roundDiv_le_of_le {num den q : Nat} (h : num ≤ q * den) : roundDiv num den ≤ q := by
  rcases Nat.eq_zero_or_pos den with rfl | positive
  · obtain rfl : num = 0 := by omega
    simp [roundDiv]
  rcases Nat.lt_or_eq_of_le h with below | rfl
  · exact roundDiv_le below
  · exact Nat.le_of_eq (roundDiv_mul_self q positive)

/-- What lies more than halfway up to the next whole number is rounded to that one, or past it. -/
theorem lt_roundDiv {num den q : Nat} (positive : 0 < den) (h : 2 * (q * den) + den < 2 * num) :
    q < roundDiv num den := by
  have whole : q ≤ num / den := (Nat.le_div_iff_mul_le positive).2 (by omega)
  have split : num / den * den + num % den = num := Nat.div_add_mod' num den
  unfold roundDiv
  dsimp only
  rcases Nat.lt_or_eq_of_le whole with above | rfl
  · split <;> omega
  · rw [if_neg (by omega)]
    exact Nat.lt_succ_self _

theorem log2_le_log2 {m n : Nat} (h : m ≤ n) : m.log2 ≤ n.log2 := by
  rcases Nat.eq_zero_or_pos m with rfl | positive
  · simp
  · exact (Nat.le_log2 (by omega)).2 (Nat.le_trans (Nat.log2_self_le (by omega)) h)

/-- Rounding does not lead past a count. -/
theorem roundCount_le {num den c : Nat} (hc : IsCount c) (h : num ≤ c * den) :
    roundCount num den ≤ c := by
  unfold roundCount
  dsimp only
  generalize hs : (num / den).log2 - 52 = s
  have coarse : 2 ^ s ∣ c := by
    refine Nat.dvd_trans (Nat.pow_dvd_pow 2 ?_) hc.2
    have := log2_le_log2 (Nat.div_le_of_le_mul (Nat.mul_comm c den ▸ h))
    omega
  obtain ⟨j, rfl⟩ := coarse
  rw [Nat.mul_comm _ j]
  refine Nat.mul_le_mul_right _ (roundDiv_le_of_le ?_)
  calc num ≤ 2 ^ s * j * den := h
    _ = j * (den * 2 ^ s) := by ac_rfl

theorem stepBits_eq : stepBits = 1074 := by
  unfold stepBits
  rfl

section Quotient

variable {n k s : Nat}

/-- Quotients of whole numbers below 2^53 are rounded to parts of one. -/
theorem two_pow_dvd_stepsPerOne (small : n < 2 ^ 53) (k : Nat)
    (hs : (n * stepsPerOne / k).log2 - 52 = s) : 2 ^ s ∣ stepsPerOne := by
  refine Nat.pow_dvd_pow 2 ?_
  have below : n * stepsPerOne / k < 2 ^ (53 + stepBits) := by
    rw [Nat.pow_add]
    exact Nat.lt_of_le_of_lt (Nat.div_le_self _ _) (Nat.mul_lt_mul_of_pos_right small stepsPerOne_pos)
  rcases Nat.eq_zero_or_pos (n * stepsPerOne / k) with none | some
  · rw [none, Nat.log2_zero] at hs
    omega
  · have := (Nat.log2_lt (Nat.ne_of_gt some)).2 below
    omega

/-- The parts to which such a quotient is rounded are smaller than what two quotients by `k` can differ
by, twice over. -/
theorem mul_two_pow_lt (small : n < 2 ^ 53) (large : k < stepsPerOne)
    (hs : (n * stepsPerOne / k).log2 - 52 = s) : k * 2 ^ s < 2 * stepsPerOne := by
  rcases Nat.eq_zero_or_pos s with rfl | some
  · omega
  · have nonzero : n * stepsPerOne / k ≠ 0 := by
      intro none
      rw [none, Nat.log2_zero] at hs
      omega
    have power : 2 ^ (52 + s) ≤ n * stepsPerOne / k := by
      rw [show 52 + s = (n * stepsPerOne / k).log2 by omega]
      exact Nat.log2_self_le nonzero
    have bound : 2 ^ 52 * (k * 2 ^ s) < 2 ^ 52 * (2 * stepsPerOne) :=
      calc 2 ^ 52 * (k * 2 ^ s) = 2 ^ (52 + s) * k := by rw [Nat.pow_add]; ring
        _ ≤ n * stepsPerOne := Nat.le_trans (Nat.mul_le_mul_right k power) (Nat.div_mul_le_self _ _)
        _ < 2 ^ 53 * stepsPerOne := Nat.mul_lt_mul_of_pos_right small stepsPerOne_pos
        _ = 2 ^ 52 * (2 * stepsPerOne) := by ring
    exact Nat.lt_of_mul_lt_mul_left bound

/-- The quotient of `n` by `k`, in steps, is rounded to more than `j` if it is more than `j`. -/
theorem lt_roundCount {j : Nat} (small : n < 2 ^ 53) (positive : 0 < k) (large : k < stepsPerOne)
    (h : j * k < n) :
    j * stepsPerOne < roundCount (n * stepsPerOne * stepsPerOne) (k * stepsPerOne) := by
  have cancel : n * stepsPerOne * stepsPerOne / (k * stepsPerOne) = n * stepsPerOne / k :=
    Nat.mul_div_mul_right _ _ stepsPerOne_pos
  unfold roundCount
  dsimp only
  rw [cancel]
  generalize hs : (n * stepsPerOne / k).log2 - 52 = s
  obtain ⟨e, he⟩ := two_pow_dvd_stepsPerOne small k hs
  have grid : j * stepsPerOne = j * e * 2 ^ s := by rw [he]; ac_rfl
  rw [grid]
  refine Nat.mul_lt_mul_of_pos_right (lt_roundDiv ?_ ?_) (Nat.two_pow_pos s)
  · exact Nat.mul_pos (Nat.mul_pos positive stepsPerOne_pos) (Nat.two_pow_pos s)
  · have fine := mul_two_pow_lt small large hs
    calc 2 * (j * e * (k * stepsPerOne * 2 ^ s)) + k * stepsPerOne * 2 ^ s
        = stepsPerOne * (2 * (j * k) * (2 ^ s * e) + k * 2 ^ s) := by ring
      _ = stepsPerOne * (2 * (j * k) * stepsPerOne + k * 2 ^ s) := by rw [← he]
      _ < stepsPerOne * (2 * (j * k) * stepsPerOne + 2 * stepsPerOne) :=
          Nat.mul_lt_mul_of_pos_left (Nat.add_lt_add_left fine _) stepsPerOne_pos
      _ = stepsPerOne * (2 * (j * k + 1) * stepsPerOne) := by ring
      _ ≤ stepsPerOne * (2 * n * stepsPerOne) := by gcongr; exact h
      _ = 2 * (n * stepsPerOne * stepsPerOne) := by ring

theorem lt_stepsPerOne_of_toNat? {x : Number} (h : x.toNat? = some k) : k < stepsPerOne := by
  obtain ⟨c, hc, -, rfl⟩ := of_toNat? h
  have count : k * stepsPerOne < stepsPerOne * stepsPerOne :=
    calc k * stepsPerOne < 2 ^ (1024 + stepBits) := hc.1
      _ ≤ 2 ^ (stepBits + stepBits) := Nat.pow_le_pow_right (by decide) (by rw [stepBits_eq]; decide)
      _ = stepsPerOne * stepsPerOne := Nat.pow_add 2 stepBits stepBits
  exact Nat.lt_of_mul_lt_mul_right count

theorem finite_div_finite {a b : Nat} (ha : IsCount (a : Int).natAbs) (hb : IsCount (b : Int).natAbs) :
    finite a ha / finite b hb = ofSteps false (a * stepsPerOne) b := by
  have numerator : ¬ (a : Int) < 0 := by omega
  have denominator : ¬ (b : Int) < 0 := by omega
  change ofSteps _ _ _ = _
  simp only [numerator, denominator, Int.natAbs_natCast, bne_self_eq_false]

theorem ofNat_div (small : n < 2 ^ 53) {size : Number} (hk : size.toNat? = some k) :
    ofNat n / size = ofSteps false (n * stepsPerOne * stepsPerOne) (k * stepsPerOne) := by
  obtain ⟨c, hc, rfl, hck⟩ := of_toNat? hk
  rw [← Int.natCast_mul] at hck
  subst hck
  rw [ofNat_eq (Nat.le_of_lt small), finite_div_finite]

/-- What lies in the last part of `d` up to `m` parts is rounded up to `m`. -/
theorem neg_ediv_neg_eq {q m d : Nat} (upper : q ≤ m * d) (lower : m * d < q + d) :
    -(-(q : Int) / d) = m := by
  have positive : (0 : Int) < d := by omega
  have upper : (q : Int) ≤ m * d := by exact_mod_cast upper
  have lower : (m : Int) * d < q + d := by exact_mod_cast lower
  have below : -(q : Int) / d < -m + 1 := by
    rw [Int.ediv_lt_iff_lt_mul positive, Int.add_mul, Int.neg_mul]
    omega
  have above : -(m : Int) ≤ -(q : Int) / d := by
    rw [Int.le_ediv_iff_mul_le positive, Int.neg_mul]
    omega
  omega

/-- Rounded up, the rounded quotient of `n` by `k` is the least `m` for which `k` times `m` is enough. -/
theorem ceil_ofNat_div {m : Nat} {size : Number} (small : n < 2 ^ 53) (hk : size.toNat? = some k)
    (positive : 0 < k) (enough : n ≤ m * k) (least : ∀ j < m, j * k < n) :
    (ofNat n / size).ceil = ofNat m := by
  have within : m ≤ n := by
    cases m with
    | zero => exact Nat.zero_le n
    | succ j => exact Nat.lt_of_le_of_lt (Nat.le_mul_of_pos_right j positive) (least j (Nat.lt_succ_self j))
  generalize hq : roundCount (n * stepsPerOne * stepsPerOne) (k * stepsPerOne) = q
  have upper : q ≤ m * stepsPerOne := by
    rw [← hq]
    refine roundCount_le (isCount_mul_stepsPerOne (by omega)) ?_
    calc n * stepsPerOne * stepsPerOne ≤ m * k * stepsPerOne * stepsPerOne := by gcongr
      _ = m * stepsPerOne * (k * stepsPerOne) := by ring
  have lower : m * stepsPerOne < q + stepsPerOne := by
    have large := lt_stepsPerOne_of_toNat? hk
    cases m with
    | zero => have := stepsPerOne_pos; omega
    | succ j =>
      have := lt_roundCount small positive large (least j (Nat.lt_succ_self j))
      rw [Nat.succ_mul]
      omega
  have bounded : q < stepsLimit := Nat.lt_of_le_of_lt upper (isCount_mul_stepsPerOne (by omega)).1
  rw [ofNat_div small hk, ofSteps, dif_pos (Nat.mul_pos positive stepsPerOne_pos)]
  simp only [hq, dif_pos bounded]
  exact congrArg ofInt (neg_ediv_neg_eq upper lower)

end Quotient

end Mender.Number
