import Mathlib.Algebra.GroupWithZero.Nat
import Mender.Number.Numeral

/-! Whole numbers. Up to 2^53 they are counted without rounding; past it a number may be the nearest to
its successor, and counting one by one stands still. -/

namespace Mender.Number

theorem of_toNat? {n : Number} {k : Nat} (h : n.toNat? = some k) :
    ∃ c hc, n = .finite c hc ∧ c = k * stepsPerOne := by
  cases n with
  | nan => cases h
  | infinite negative => cases h
  | finite c hc =>
    simp only [toNat?] at h
    split at h
    case isTrue hwhole =>
      refine ⟨c, hc, rfl, ?_⟩
      have hdiv := Nat.div_add_mod c.natAbs stepsPerOne
      rw [hwhole.2, Option.some.inj h, Nat.add_zero, Nat.mul_comm] at hdiv
      rw [← Int.natAbs_of_nonneg hwhole.1, ← hdiv, Int.natCast_mul]
    case isFalse => cases h

theorem ofSteps_of_isCount {c : Int} {den : Nat} (positive : 0 < den) (h : IsCount c.natAbs) :
    ofSteps (c < 0) (c.natAbs * den) den = .finite c h := by
  have round := roundCount_mul_self positive h
  simp only [ofSteps, dif_pos positive, round, dif_pos h.1, finite.injEq, decide_eq_true_eq]
  split <;> omega

section Whole

variable {r : Int}

theorem isCount_whole {n : Nat} (h : n ≤ 2 ^ 53) : IsCount ((n : Int) * stepsPerOne).natAbs := by
  have size : ((n : Int) * stepsPerOne).natAbs = n * stepsPerOne := Int.natAbs_mul n stepsPerOne
  exact size ▸ isCount_mul_stepsPerOne h

theorem mul_stepsPerOne_neg_iff : r * stepsPerOne < 0 ↔ r < 0 := by
  have positive : (0 : Int) < stepsPerOne := Int.natCast_pos.2 stepsPerOne_pos
  simpa only [Int.zero_mul] using Int.mul_lt_mul_right (b := r) (c := 0) positive

theorem ofInt_eq (h : IsCount (r * stepsPerOne).natAbs) : ofInt r = .finite (r * stepsPerOne) h := by
  rw [← ofSteps_of_isCount Nat.one_pos h, ofInt, decide_eq_decide.2 mul_stepsPerOne_neg_iff,
    Int.natAbs_mul, Int.natAbs_natCast, Nat.mul_one]

theorem ceil_whole (h : IsCount (r * stepsPerOne).natAbs) :
    ceil (.finite (r * stepsPerOne) h) = .finite (r * stepsPerOne) h := by
  have nonzero : (stepsPerOne : Int) ≠ 0 := Int.natCast_ne_zero.2 (Nat.ne_of_gt stepsPerOne_pos)
  rw [ceil, ← Int.neg_mul, Int.mul_ediv_cancel _ nonzero, Int.neg_neg, ofInt_eq h]

theorem toNat?_whole {n : Nat} (h : IsCount ((n : Int) * stepsPerOne).natAbs) :
    toNat? (.finite (n * stepsPerOne) h) = some n := by
  have low : (0 : Int) ≤ n * stepsPerOne := Int.mul_nonneg (Int.natCast_nonneg n) (Int.natCast_nonneg _)
  have size : ((n : Int) * stepsPerOne).natAbs = n * stepsPerOne := Int.natAbs_mul n stepsPerOne
  rw [toNat?, size, Nat.mul_mod_left, if_pos ⟨low, rfl⟩, Nat.mul_div_cancel _ stepsPerOne_pos]

theorem toNat?_of_neg {c : Int} {h : IsCount c.natAbs} (negative : c < 0) :
    toNat? (.finite c h) = none := by
  rw [toNat?, if_neg fun low => absurd negative (Int.not_lt.2 low.1)]

end Whole

theorem zero_eq : (0 : Number) = .finite 0 (by decide +kernel) := by
  change ofNat 0 = _
  rw [ofNat_eq (Nat.zero_le _)]
  simp

/-- Rounding keeps the highest power of two in a count. -/
theorem two_pow_log2_le_roundCount {num den : Nat} (h : num / den ≠ 0) :
    2 ^ (num / den).log2 ≤ roundCount num den := by
  generalize hs : (num / den).log2 - 52 = s
  have split : 2 ^ ((num / den).log2 - s) * 2 ^ s = 2 ^ (num / den).log2 := by
    rw [← Nat.pow_add, Nat.sub_add_cancel (by omega)]
  have quotient : 2 ^ ((num / den).log2 - s) ≤ num / (den * 2 ^ s) := by
    rw [← Nat.div_div_eq_div_mul, Nat.le_div_iff_mul_le (Nat.two_pow_pos s), split]
    exact Nat.log2_self_le h
  have rounded : num / (den * 2 ^ s) ≤ roundDiv num (den * 2 ^ s) := by
    unfold roundDiv
    dsimp only
    split <;> omega
  rw [roundCount, hs, ← split]
  exact Nat.mul_le_mul_right _ (Nat.le_trans quotient rounded)

/-- A count of at least `2 ^ e` steps is rounded to such a count. -/
theorem two_pow_le_roundCount {e num den : Nat} (h : 2 ^ e ≤ num / den) :
    2 ^ e ≤ roundCount num den := by
  have nonzero : num / den ≠ 0 := Nat.ne_of_gt (Nat.lt_of_lt_of_le (Nat.two_pow_pos e) h)
  refine Nat.le_trans (Nat.pow_le_pow_right (by decide) ?_) (two_pow_log2_le_roundCount nonzero)
  exact (Nat.le_log2 nonzero).2 h

theorem roundCount_pos {n : Nat} (h : 0 < n) : 0 < roundCount n 1 :=
  two_pow_le_roundCount (e := 0) (by rwa [Nat.div_one])

theorem ofNat_eq_zero_iff {n : Nat} : ofNat n = 0 ↔ n = 0 := by
  constructor
  · intro h
    refine Classical.byContradiction fun positive => ?_
    have count := roundCount_pos (Nat.mul_pos (Nat.pos_of_ne_zero positive) stepsPerOne_pos)
    rw [zero_eq, ofNat, ofInt, ofSteps] at h
    simp only [Int.natAbs_natCast, Nat.one_pos, dif_pos] at h
    split at h
    case isTrue =>
      rw [finite.injEq] at h
      split at h <;> omega
    case isFalse => cases h
  · rintro rfl
    rfl

/-- The numbers of lines are told from zero, however large they are. -/
theorem one_le_ofNat_iff {n : Nat} : le 1 (ofNat n) = true ↔ 1 ≤ n := by
  have one : (1 : Number) = .finite stepsPerOne (by decide +kernel) := by
    change ofNat 1 = _
    rw [ofNat_eq (by decide)]
    simp
  constructor
  · intro h
    refine Nat.pos_of_ne_zero ?_
    rintro rfl
    revert h
    decide +kernel
  · intro h
    have large : stepsPerOne ≤ n * stepsPerOne / 1 := by
      rw [Nat.div_one]
      exact Nat.le_mul_of_pos_left _ h
    have count : stepsPerOne ≤ roundCount (n * stepsPerOne) 1 := two_pow_le_roundCount large
    rw [one, ofNat, ofInt, ofSteps]
    simp only [Int.natAbs_natCast, Nat.one_pos, dif_pos]
    split
    case isTrue =>
      have low : ¬ (n : Int) < 0 := by omega
      simp only [le, low, decide_false, decide_eq_true_eq]
      exact Int.ofNat_le.2 count
    case isFalse =>
      have low : decide ((n : Int) < 0) = false := decide_eq_false (by omega)
      rw [low]
      rfl

theorem ofNat_add_ofNat {a b : Nat} (h : a + b ≤ 2 ^ 53) : ofNat a + ofNat b = ofNat (a + b) := by
  have ha : a ≤ 2 ^ 53 := by omega
  have hb : b ≤ 2 ^ 53 := by omega
  have exact : ((a * stepsPerOne : Nat) : Int) + ((b * stepsPerOne : Nat) : Int) =
      (((a + b) * stepsPerOne : Nat) : Int) := by
    rw [Nat.add_mul, Int.natCast_add]
  have round : roundCount ((a + b) * stepsPerOne) 1 = (a + b) * stepsPerOne := by
    simpa using roundCount_mul_self Nat.one_pos (isCount_mul_stepsPerOne h)
  have low : ¬ (((a + b) * stepsPerOne : Nat) : Int) < 0 := by omega
  rw [ofNat_eq ha, ofNat_eq hb, ofNat_eq h]
  change ofSteps _ _ 1 = _
  simp only [exact, ofSteps, Int.natAbs_natCast, round, (isCount_mul_stepsPerOne h).1, low]
  simp

def total (x : Number) (amounts : List Nat) : Number := amounts.foldl (fun x n => x + ofNat n) x

@[simp] theorem total_nil (x : Number) : total x [] = x := rfl

@[simp] theorem total_cons (x : Number) (n : Nat) (amounts : List Nat) :
    total x (n :: amounts) = total (x + ofNat n) amounts := rfl

theorem total_append (x : Number) (l l' : List Nat) : total x (l ++ l') = total (total x l) l' :=
  List.foldl_append

/-- As long as a whole figure stays within 2^53, it comes to the exact sum. -/
theorem total_ofNat {a : Nat} {amounts : List Nat} (h : a + amounts.sum ≤ 2 ^ 53) :
    total (ofNat a) amounts = ofNat (a + amounts.sum) := by
  induction amounts generalizing a with
  | nil =>
    have sum : a + ([] : List Nat).sum = a := Nat.add_zero a
    rw [sum, total_nil]
  | cons n amounts ih =>
    have sum : a + (n :: amounts).sum = a + n + amounts.sum := by
      rw [List.sum_cons, Nat.add_assoc]
    rw [sum] at h
    have first : a + n ≤ 2 ^ 53 := Nat.le_trans (Nat.le_add_right _ _) h
    rw [total_cons, ofNat_add_ofNat first, ih h, sum]

end Mender.Number
