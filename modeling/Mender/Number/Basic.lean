/-! Binary floating-point numbers of double precision. A finite number is a whole count of the
smallest step, 2^1074 of which make one, so a number is kept exactly; every operation rounds its
exact result once, to the nearest number and from the middle to the even one. -/

namespace Mender

/-- The power of whole numbers is the built-in one, whatever other powers are in scope. -/
@[default_instance high]
scoped instance (priority := 1100) natPow : Pow Nat Nat := instPowNat

/-- The smallest step is 2^-1074. -/
@[irreducible] def stepBits : Nat := 1074

def stepsPerOne : Nat := 2 ^ stepBits

/-- The first count that is past the largest number. -/
def stepsLimit : Nat := 2 ^ (1024 + stepBits)

/-- A count of steps is a number's if it has at most 53 significant bits and is not past the
largest number. -/
def IsCount (n : Nat) : Prop := n < stepsLimit ∧ 2 ^ (n.log2 - 52) ∣ n

instance (n : Nat) : Decidable (IsCount n) := by unfold IsCount; infer_instance

/-- A number. There is one zero, since nothing here tells its signs apart. -/
inductive Number where
  | nan
  | infinite (negative : Bool)
  | finite (count : Int) (isCount : IsCount count.natAbs)
  deriving DecidableEq

namespace Number

/-- The whole number nearest to `num / den`; of two, the even one. -/
def roundDiv (num den : Nat) : Nat :=
  let q := num / den
  let r := num % den
  if 2 * r < den ∨ (2 * r = den ∧ q % 2 = 0) then q else q + 1

theorem roundDiv_le {num den bound : Nat} (h : num < bound * den) : roundDiv num den ≤ bound := by
  have hq : num / den < bound := Nat.div_lt_of_lt_mul (by rwa [Nat.mul_comm] at h)
  unfold roundDiv
  dsimp only
  split <;> omega

/-- The count nearest to `num / den` steps that has at most 53 significant bits. -/
def roundCount (num den : Nat) : Nat :=
  let shift := (num / den).log2 - 52
  roundDiv num (den * 2 ^ shift) * 2 ^ shift

theorem pow_dvd_of_le {c : Nat} (s : Nat) (h : c ≤ 2 ^ 53) :
    2 ^ ((c * 2 ^ s).log2 - 52) ∣ c * 2 ^ s := by
  rcases Nat.eq_zero_or_pos c with rfl | hc
  · simp
  rcases Nat.lt_or_eq_of_le h with hlt | rfl
  · have hne : c * 2 ^ s ≠ 0 := Nat.mul_ne_zero (Nat.ne_of_gt hc) (Nat.ne_of_gt (Nat.two_pow_pos s))
    have hl : (c * 2 ^ s).log2 < 53 + s := by
      rw [Nat.log2_lt hne, Nat.pow_add]
      exact Nat.mul_lt_mul_of_pos_right hlt (Nat.two_pow_pos s)
    exact Nat.dvd_trans (Nat.pow_dvd_pow 2 (by omega)) (Nat.dvd_mul_left _ _)
  · rw [← Nat.pow_add, Nat.log2_two_pow]
    exact Nat.pow_dvd_pow 2 (by omega)

theorem lt_two_pow_mul (num : Nat) {den : Nat} (h : 0 < den) :
    num < 2 ^ 53 * (den * 2 ^ ((num / den).log2 - 52)) := by
  have hq : num / den < 2 ^ (53 + ((num / den).log2 - 52)) :=
    Nat.lt_of_lt_of_le Nat.lt_log2_self (Nat.pow_le_pow_right (by omega) (by omega))
  have hn := (Nat.div_lt_iff_lt_mul h).1 hq
  rwa [Nat.pow_add, Nat.mul_assoc, Nat.mul_comm _ den] at hn

theorem isCount_roundCount {num den : Nat} (hd : 0 < den) (h : roundCount num den < stepsLimit) :
    IsCount (roundCount num den) :=
  ⟨h, pow_dvd_of_le _ (roundDiv_le (lt_two_pow_mul num hd))⟩

theorem roundDiv_mul_self (q : Nat) {den : Nat} (h : 0 < den) : roundDiv (q * den) den = q := by
  unfold roundDiv
  dsimp only
  rw [Nat.mul_mod_left, Nat.mul_div_cancel _ h, if_pos (Or.inl (by omega))]

theorem roundCount_mul_self {n den : Nat} (hd : 0 < den) (h : IsCount n) :
    roundCount (n * den) den = n := by
  unfold roundCount
  dsimp only
  rw [Nat.mul_div_cancel _ hd]
  obtain ⟨k, hk⟩ := h.2
  generalize 2 ^ (n.log2 - 52) = p at hk
  have hp : 0 < den * p ∨ n = 0 := by
    rcases Nat.eq_zero_or_pos p with rfl | hp
    · exact .inr (by rw [hk, Nat.zero_mul])
    · exact .inl (Nat.mul_pos hd hp)
  rcases hp with hp | rfl
  · rw [show n * den = k * (den * p) by rw [hk]; ac_rfl, roundDiv_mul_self _ hp, hk, Nat.mul_comm]
  · rcases Nat.eq_zero_or_pos (den * p) with h0 | h0 <;> simp [roundDiv, h0]

/-- `num / den` steps, rounded; a quotient by zero has no bound, that of zero by itself no value. -/
def ofSteps (negative : Bool) (num den : Nat) : Number :=
  if hd : 0 < den then
    if h : roundCount num den < stepsLimit then
      .finite (if negative then -(roundCount num den) else roundCount num den)
        (by split <;> simpa using isCount_roundCount hd h)
    else .infinite negative
  else if num = 0 then .nan
  else .infinite negative

def ofInt (i : Int) : Number := ofSteps (i < 0) (i.natAbs * stepsPerOne) 1

def ofNat (n : Nat) : Number := ofInt n

instance (n : Nat) : OfNat Number n := ⟨ofNat n⟩

instance : Inhabited Number := ⟨0⟩

def isInteger : Number → Bool
  | .finite count _ => count.natAbs % stepsPerOne == 0
  | _ => false

/-- The whole number that a number is, if it is one and not negative. -/
def toNat? : Number → Option Nat
  | .finite count _ =>
    if 0 ≤ count ∧ count.natAbs % stepsPerOne = 0 then some (count.natAbs / stepsPerOne) else none
  | _ => none

def isNegative : Number → Bool
  | .nan => false
  | .infinite negative => negative
  | .finite count _ => count < 0

def isZero : Number → Bool
  | .finite count _ => count == 0
  | _ => false

/-- Less than or equal; never true of a NaN. -/
def le : Number → Number → Bool
  | .nan, _ | _, .nan => false
  | .infinite true, _ | _, .infinite false => true
  | .infinite false, .infinite true => false
  | .infinite false, .finite .. | .finite .., .infinite true => false
  | .finite a _, .finite b _ => a ≤ b

def lt (x y : Number) : Bool := x.le y && x != y

def add : Number → Number → Number
  | .nan, _ | _, .nan => .nan
  | .infinite a, .infinite b => if a = b then .infinite a else .nan
  | .infinite a, .finite .. | .finite .., .infinite a => .infinite a
  | .finite a _, .finite b _ => ofSteps (a + b < 0) (a + b).natAbs 1

instance : Add Number := ⟨add⟩

def mul : Number → Number → Number
  | .finite a _, .finite b _ =>
    ofSteps ((a < 0) != (b < 0)) (a.natAbs * b.natAbs) stepsPerOne
  | x, y =>
    if x = .nan ∨ y = .nan ∨ x.isZero ∨ y.isZero then .nan
    else .infinite (x.isNegative != y.isNegative)

instance : Mul Number := ⟨mul⟩

def div : Number → Number → Number
  | .finite a _, .finite b _ =>
    ofSteps ((a < 0) != (b < 0)) (a.natAbs * stepsPerOne) b.natAbs
  | .infinite a, .finite b _ => .infinite (a != (b < 0))
  | .finite .., .infinite _ => 0
  | _, _ => .nan

instance : Div Number := ⟨div⟩

def ceil : Number → Number
  | .finite count _ => ofInt (-(-count / (stepsPerOne : Int)))
  | x => x

theorem stepsPerOne_pos : 0 < stepsPerOne := Nat.two_pow_pos stepBits

/-- Whole numbers of up to 53 bits are numbers themselves. -/
theorem isCount_mul_stepsPerOne {n : Nat} (h : n ≤ 2 ^ 53) : IsCount (n * stepsPerOne) := by
  refine ⟨?_, pow_dvd_of_le stepBits h⟩
  calc n * 2 ^ stepBits ≤ 2 ^ 53 * 2 ^ stepBits := Nat.mul_le_mul_right _ h
    _ = 2 ^ (53 + stepBits) := (Nat.pow_add 2 53 stepBits).symm
    _ < 2 ^ (1024 + stepBits) := Nat.pow_lt_pow_right (by omega) (by omega)

theorem ofNat_eq {n : Nat} (h : n ≤ 2 ^ 53) :
    ofNat n = .finite (n * stepsPerOne : Nat) (by
      rw [Int.natAbs_natCast]
      exact isCount_mul_stepsPerOne h) := by
  have hc := isCount_mul_stepsPerOne h
  have hr : roundCount (n * stepsPerOne) 1 = n * stepsPerOne := by
    simpa using roundCount_mul_self Nat.one_pos hc
  have hn : ¬ ((n : Int) < 0) := by omega
  simp only [ofNat, ofInt, ofSteps, Int.natAbs_natCast, hr, hc.1, hn]
  simp

theorem toNat?_ofNat {n : Nat} (h : n ≤ 2 ^ 53) : (ofNat n).toNat? = some n := by
  rw [ofNat_eq h, toNat?, Int.natAbs_natCast, Nat.mul_mod_left,
    Nat.mul_div_cancel _ stepsPerOne_pos, if_pos ⟨Int.natCast_nonneg _, rfl⟩]

end Number
end Mender
