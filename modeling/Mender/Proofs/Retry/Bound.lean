import Mathlib.Order.Bounds.Basic
import Mender.Proofs.Number.Whole
import Mender.Proofs.Retry

/-! How often a policy lets something be tried. Attempts are counted one by one, and the last one is the
first whose number is not below what the policy asks for; if no number up to 2^53 is, there is no last
one. -/

namespace Mender

namespace Number

variable {c : Int}

theorem le_ofNat_iff {hc : IsCount c.natAbs} {n : Nat} (h : n ≤ 2 ^ 53) :
    le (.finite c hc) (ofNat n) = true ↔ c ≤ n * stepsPerOne := by
  rw [ofNat_eq h]
  simp only [le, decide_eq_true_eq, Int.natCast_mul]

def up (c : Int) : Int := -(-c / stepsPerOne)

theorem up_le_iff {n : Int} : up c ≤ n ↔ c ≤ n * stepsPerOne := by
  have positive : (0 : Int) < stepsPerOne := Int.natCast_pos.2 stepsPerOne_pos
  rw [up, Int.neg_le_iff, Int.le_ediv_iff_mul_le positive, Int.neg_mul]
  omega

theorem up_whole (r : Int) : up (r * stepsPerOne) = r := by
  have nonzero : (stepsPerOne : Int) ≠ 0 := Int.natCast_ne_zero.2 (Nat.ne_of_gt stepsPerOne_pos)
  rw [up, ← Int.neg_mul, Int.mul_ediv_cancel _ nonzero, Int.neg_neg]

theorem toNat?_ofInt_of_neg {q : Int} (h : q < 0) : (ofInt q).toNat? = none := by
  have count : 0 < roundCount (q.natAbs * stepsPerOne) 1 :=
    roundCount_pos (Nat.mul_pos (Int.natAbs_pos.2 (Int.ne_of_lt h)) stepsPerOne_pos)
  rw [ofInt, ofSteps, dif_pos Nat.one_pos, decide_eq_true h]
  split
  case isTrue below =>
    refine toNat?_of_neg ?_
    rw [if_pos rfl]
    omega
  case isFalse => rfl

/-- Past 2^53 there are whole numbers only. -/
theorem exists_eq_mul_of_le (hc : IsCount c.natAbs) (large : ((2 ^ 53 : Nat) : Int) * stepsPerOne ≤ c) :
    ∃ n : Nat, c = n * stepsPerOne := by
  obtain ⟨m, rfl⟩ := Int.eq_ofNat_of_zero_le
    (Int.le_trans (Int.mul_nonneg (Int.natCast_nonneg _) (Int.natCast_nonneg _)) large)
  rw [Int.natAbs_natCast] at hc
  have power : 2 ^ (53 + stepBits) ≤ m := by
    rw [Nat.pow_add]
    exact Int.ofNat_le.1 large
  have nonzero : m ≠ 0 := Nat.ne_of_gt (Nat.lt_of_lt_of_le (Nat.two_pow_pos _) power)
  have long : 53 + stepBits ≤ m.log2 := (Nat.le_log2 nonzero).2 power
  obtain ⟨n, hn⟩ : stepsPerOne ∣ m := Nat.dvd_trans (Nat.pow_dvd_pow 2 (by omega)) hc.2
  exact ⟨n, by rw [hn, Nat.mul_comm, Int.natCast_mul]⟩

theorem toNat?_ceil {hc : IsCount c.natAbs} (low : 0 ≤ up c) :
    (ceil (.finite c hc)).toNat? = some (up c).toNat := by
  rcases Int.lt_or_le (2 ^ 53 : Nat) (up c) with large | small
  · have past : ¬ up c ≤ (2 ^ 53 : Nat) := Int.not_le.2 large
    rw [up_le_iff] at past
    obtain ⟨n, rfl⟩ := exists_eq_mul_of_le hc (Int.le_of_lt (Int.not_le.1 past))
    rw [ceil_whole, toNat?_whole, up_whole, Int.toNat_natCast]
  · obtain ⟨n, hn⟩ := Int.eq_ofNat_of_zero_le low
    have ceil : ceil (.finite c hc) = ofNat n := congrArg ofInt hn
    rw [hn] at small
    rw [ceil, toNat?_ofNat (Int.ofNat_le.1 small), hn, Int.toNat_natCast]

end Number

namespace Retry

open Number (up)

variable {p : Retry}

theorem allowed?_finite {c : Int} {hc : IsCount c.natAbs} (h : p.retries = .finite c hc) :
    p.allowed? = if up c ≤ (2 ^ 53 : Nat) then some (max 1 (up c)).toNat else none := by
  rcases Int.lt_or_le (up c) 0 with negative | low
  · have below : c < 0 := by
      have := Number.up_le_iff.1 (Int.le_refl (up c))
      have := Int.mul_neg_of_neg_of_pos negative (Int.natCast_pos.2 Number.stepsPerOne_pos)
      omega
    have one : max 1 (up c) = 1 := by omega
    have none : p.retries.ceil.toNat? = none := by
      rw [h]
      exact Number.toNat?_ofInt_of_neg negative
    have reached : up c ≤ (2 ^ 53 : Nat) := by omega
    rw [if_pos reached, one, allowed?, none, h]
    exact if_pos (decide_eq_true below)
  · obtain ⟨n, hn⟩ := Int.eq_ofNat_of_zero_le low
    have some : p.retries.ceil.toNat? = some n := by rw [h, Number.toNat?_ceil low, hn, Int.toNat_natCast]
    have most : (max 1 (n : Int)).toNat = max 1 n := by omega
    rw [allowed?, some, hn, most]
    simp only [Int.ofNat_le]

/-- No attempt follows attempt `n`, whatever its answer is. -/
def Suffices (p : Retry) (n : Nat) : Prop := 1 ≤ n ∧ n ≤ 2 ^ 53 ∧ p.retries.le (.ofNat n) = true

theorem suffices_finite_iff {c : Int} {hc : IsCount c.natAbs} (h : p.retries = .finite c hc) {n : Nat} :
    p.Suffices n ↔ 1 ≤ n ∧ n ≤ 2 ^ 53 ∧ up c ≤ n := by
  rw [Suffices, h]
  refine and_congr_right fun _ => and_congr_right fun countable => ?_
  rw [Number.le_ofNat_iff countable, Number.up_le_iff]

/-- Either there is a first number that is not below what the policy asks for, and that is the bound, or
there is neither. -/
theorem bounded_or_boundless (p : Retry) :
    (∃ b, p.allowed? = some b ∧ IsLeast {n | p.Suffices n} b) ∨
      (p.allowed? = none ∧ ∀ n, ¬ p.Suffices n) := by
  cases h : p.retries with
  | nan =>
    refine .inr ⟨by rw [allowed?, h]; rfl, fun n enough => ?_⟩
    obtain ⟨-, -, le⟩ := enough
    rw [h] at le
    cases le
  | infinite negative =>
    cases negative with
    | true =>
      refine .inl ⟨1, by rw [allowed?, h]; rfl, ⟨Nat.le_refl 1, by decide, ?_⟩, fun n hn => hn.1⟩
      rw [h, Number.ofNat_eq (by decide)]
      rfl
    | false =>
      refine .inr ⟨by rw [allowed?, h]; rfl, fun n enough => ?_⟩
      obtain ⟨-, countable, le⟩ := enough
      rw [h, Number.ofNat_eq countable] at le
      cases le
  | finite c hc =>
    rw [allowed?_finite h]
    split
    case isTrue reached =>
      refine .inl ⟨_, rfl, (suffices_finite_iff h).2 (by omega), fun n hn => ?_⟩
      have := (suffices_finite_iff h).1 hn
      omega
    case isFalse past =>
      refine .inr ⟨rfl, fun n hn => ?_⟩
      have := (suffices_finite_iff h).1 hn
      omega

/-- The last attempt that a policy allows is the first one with a number that is not below what the
policy asks for. -/
theorem allowed?_eq_some_iff {b : Nat} : p.allowed? = some b ↔ IsLeast {n | p.Suffices n} b := by
  rcases p.bounded_or_boundless with ⟨b', allowed, least⟩ | ⟨none, boundless⟩
  · rw [allowed, Option.some.injEq]
    exact ⟨fun same => same ▸ least, least.unique⟩
  · rw [none]
    exact iff_of_false (by simp) fun least => boundless b least.1

end Retry
end Mender
