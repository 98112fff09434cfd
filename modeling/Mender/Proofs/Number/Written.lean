import Mender.Proofs.Number.Decimal
import Mender.Proofs.Number.Numeral

/-! A whole number reads back from how it is written, also where it is written as a decimal with a point or an
exponent. So different whole numbers are written differently. -/

namespace Mender

open Mender.Text

namespace Numeral

variable {w f t : List Char} {i : Int}

theorem takeWhile_digits_append (hw : ∀ c ∈ w, c.isDigit = true) (ends : ∀ c ∈ t.head?, c.isDigit = false) :
    (w ++ t).takeWhile Char.isDigit = w ∧ (w ++ t).dropWhile Char.isDigit = t := by
  rw [List.takeWhile_append_of_pos hw, List.dropWhile_append_of_pos hw]
  cases t with
  | nil => simp
  | cons c t => simp [ends c rfl]

theorem read?_point (given : w ≠ []) (hw : ∀ c ∈ w, c.isDigit = true) (hf : ∀ c ∈ f, c.isDigit = true) :
    read? (w ++ '.' :: f) = some ⟨w, f, 0⟩ := by
  obtain ⟨whole, rest⟩ := takeWhile_digits_append (t := '.' :: f) hw (by simp)
  have fraction : f.takeWhile Char.isDigit = f ∧ f.dropWhile Char.isDigit = [] := by simpa using hf
  simp [read?, whole, rest, fraction, given]

theorem read?_exponent (given : w ≠ []) (hw : ∀ c ∈ w, c.isDigit = true) (ht : readExponent? t = some i) :
    read? (w ++ 'e' :: t) = some ⟨w, [], i⟩ := by
  obtain ⟨whole, rest⟩ := takeWhile_digits_append (t := 'e' :: t) hw (by simp)
  simp [read?, whole, rest, given, ht]

theorem read?_point_exponent (given : w ≠ []) (hw : ∀ c ∈ w, c.isDigit = true)
    (hf : ∀ c ∈ f, c.isDigit = true) (ht : readExponent? t = some i) :
    read? (w ++ '.' :: (f ++ 'e' :: t)) = some ⟨w, f, i⟩ := by
  obtain ⟨whole, rest⟩ := takeWhile_digits_append (t := '.' :: (f ++ 'e' :: t)) hw (by simp)
  obtain ⟨fraction, exponent⟩ := takeWhile_digits_append (t := 'e' :: t) hf (by simp)
  simp [read?, whole, rest, fraction, exponent, given, ht]

theorem value_decimal (given : w ≠ []) (hw : ∀ c ∈ w, c.isDigit = true) (hf : ∀ c ∈ f, c.isDigit = true) :
    (decimal ⟨w, f, i⟩).value = Nat.ofDigitChars 10 (w ++ f) 0 * (10 : ℚ) ^ (i - f.length) := by
  have digits := readDigits?_of_forall_isDigit (List.append_ne_nil_of_left_ne_nil given f)
    (List.forall_mem_append.2 ⟨hw, hf⟩)
  rw [Decimal.value, decimal, readDecimal, digits, Option.getD_some]

theorem readExponent?_sign (e : Int) :
    readExponent? ((if e < 0 then '-' else '+') :: Nat.toDigits 10 e.natAbs) = some e := by
  have digits : readDigits? 10 (Nat.toDigits 10 e.natAbs) = some e.natAbs := by
    rw [readDigits?_of_forall_isDigit Nat.toDigits_ne_nil Number.isDigit_of_mem_toDigits,
      Nat.ofDigitChars_ten_toDigits]
  split
  case isTrue negative =>
    rw [readExponent?, digits]
    exact congrArg some (show -(e.natAbs : Int) = e by omega)
  case isFalse low =>
    rw [readExponent?, digits]
    exact congrArg some (show (e.natAbs : Int) = e by omega)

end Numeral

namespace Decimal

variable {d : Decimal}

theorem exists_toDigits_eq (d : Decimal) :
    ∃ z : Nat, Nat.toDigits 10 d.digits = d.significant.1 ++ List.replicate z '0' ∧
      d.significant.2 = d.significant.1.length + z + d.exponent := by
  have whole := dropEndWhile_append_takeEnd (· == '0') (Nat.toDigits 10 d.digits)
  set zeros := ((Nat.toDigits 10 d.digits).reverse.takeWhile (· == '0')).reverse
  have eq_zeros : zeros = List.replicate zeros.length '0' := by
    refine List.eq_replicate_of_mem fun c hc => ?_
    simpa using List.mem_takeWhile_imp (List.mem_reverse.1 hc)
  refine ⟨zeros.length, by rw [← eq_zeros]; exact whole.symm, ?_⟩
  have length := congrArg List.length whole
  rw [List.length_append] at length
  change ((Nat.toDigits 10 d.digits).length : Int) + d.exponent = _
  rw [← length, Nat.cast_add]
  rfl

theorem isDigit_of_mem_significant : ∀ c ∈ d.significant.1, c.isDigit = true := by
  obtain ⟨z, whole, -⟩ := d.exists_toDigits_eq
  intro c hc
  exact Number.isDigit_of_mem_toDigits c (by rw [whole]; exact List.mem_append_left _ hc)

theorem digits_eq (d : Decimal) : ∃ z : Nat, d.digits = Nat.ofDigitChars 10 d.significant.1 0 * 10 ^ z ∧
    d.significant.2 = d.significant.1.length + z + d.exponent := by
  obtain ⟨z, whole, point⟩ := d.exists_toDigits_eq
  refine ⟨z, ?_, point⟩
  have read := Nat.ofDigitChars_ten_toDigits (n := d.digits)
  rw [whole, Nat.ofDigitChars_append, Nat.ofDigitChars_replicate_zero, Nat.mul_comm] at read
  exact read.symm

theorem significant_ne_nil (given : d.digits ≠ 0) : d.significant.1 ≠ [] := by
  intro none
  obtain ⟨z, digits, -⟩ := d.digits_eq
  rw [none, Nat.ofDigitChars_nil, Nat.zero_mul] at digits
  exact given digits

theorem value_eq (d : Decimal) : d.value =
    Nat.ofDigitChars 10 d.significant.1 0 * (10 : ℚ) ^ (d.significant.2 - d.significant.1.length) := by
  obtain ⟨z, digits, point⟩ := d.digits_eq
  have exponent : d.significant.2 - d.significant.1.length = z + d.exponent := by omega
  rw [value, digits, exponent, zpow_add₀ (by norm_num), zpow_natCast]
  push_cast
  ring

/-- A decimal that starts in front of the point is written as a numeral of its value. -/
theorem read?_toText (given : d.digits ≠ 0) (front : 0 < d.significant.2) :
    ∃ n, Numeral.read? d.toText = some n ∧ n.whole ≠ [] ∧ 0 ≤ n.exponent ∧ n.decimal.value = d.value := by
  have some := significant_ne_nil given
  have digits := d.isDigit_of_mem_significant
  rw [value_eq]
  unfold toText
  generalize d.significant = significant at front some digits
  obtain ⟨s, point⟩ := significant
  dsimp only at front some digits ⊢
  split
  case isTrue whole =>
    have zero : ∀ c ∈ zeros (point - s.length), c.isDigit = true := by
      intro c hc
      rw [List.eq_of_mem_replicate hc]
      rfl
    have hw := List.forall_mem_append.2 ⟨digits, zero⟩
    have hne := List.append_ne_nil_of_left_ne_nil some (zeros (point - s.length))
    refine ⟨_, Number.read?_of_forall_isDigit hne hw, hne, le_rfl, ?_⟩
    have count : ((point - s.length).toNat : Int) = point - s.length := by omega
    rw [Numeral.value_decimal hne hw (List.forall_mem_nil _), List.append_nil, Nat.ofDigitChars_append, zeros,
      Nat.ofDigitChars_replicate_zero, ← count, zpow_natCast]
    push_cast
    simp [mul_comm]
  case isFalse long =>
    split
    case isTrue within =>
      have inside : point.toNat < s.length := by omega
      have hw : ∀ c ∈ s.take point.toNat, c.isDigit = true := fun c hc => digits c (List.mem_of_mem_take hc)
      have hf : ∀ c ∈ s.drop point.toNat, c.isDigit = true := fun c hc => digits c (List.mem_of_mem_drop hc)
      have hne : s.take point.toNat ≠ [] := by
        simp [some]
        omega
      have places : (0 : Int) - (s.drop point.toNat).length = point - s.length := by
        rw [List.length_drop]
        omega
      refine ⟨_, Numeral.read?_point hne hw hf, hne, le_rfl, ?_⟩
      rw [Numeral.value_decimal hne hw hf, List.take_append_drop, places]
    case isFalse large =>
      rw [if_neg (by omega)]
      cases s with
      | nil => exact absurd rfl some
      | cons digit more =>
        obtain ⟨first, digits⟩ := List.forall_mem_cons.1 digits
        have hw : ∀ c ∈ [digit], c.isDigit = true := by simpa using first
        have exponent := Numeral.readExponent?_sign (point - 1)
        have low : 0 ≤ point - 1 := by omega
        have places : point - 1 - more.length = point - (digit :: more).length := by
          rw [List.length_cons]
          omega
        cases more with
        | nil =>
          refine ⟨_, Numeral.read?_exponent (List.cons_ne_nil _ _) hw exponent, List.cons_ne_nil _ _, low, ?_⟩
          rw [Numeral.value_decimal (List.cons_ne_nil _ _) hw (List.forall_mem_nil _), places]
          rfl
        | cons second more =>
          refine ⟨_, Numeral.read?_point_exponent (List.cons_ne_nil _ _) hw digits exponent, List.cons_ne_nil _ _,
            low, ?_⟩
          rw [Numeral.value_decimal (List.cons_ne_nil _ _) hw digits, places]
          rfl

theorem isDigit_of_mem_zeros {n : Int} {c : Char} (h : c ∈ zeros n) : c.isDigit = true := by
  rw [List.eq_of_mem_replicate h]
  rfl

theorem of_mem_exponentText {e : Int} {c : Char} (h : c ∈ exponentText e) :
    c.isDigit = true ∨ c ∈ ['.', 'e', '+', '-'] := by
  obtain rfl | h := List.mem_cons.1 h
  · exact .inr (by decide)
  · obtain rfl | h := List.mem_cons.1 h
    · refine .inr ?_
      split <;> decide
    · exact .inl (Number.isDigit_of_mem_toDigits c h)

theorem of_mem_toText {c : Char} (front : 0 < d.significant.2) (h : c ∈ d.toText) :
    c.isDigit = true ∨ c ∈ ['.', 'e', '+', '-'] := by
  have digits := d.isDigit_of_mem_significant
  unfold toText at h
  generalize d.significant = significant at front digits h
  obtain ⟨s, point⟩ := significant
  dsimp only at front digits h
  have taken (n : Nat) : ∀ c ∈ s.take n, c.isDigit = true := fun c hc => digits c (List.mem_of_mem_take hc)
  have dropped (n : Nat) : ∀ c ∈ s.drop n, c.isDigit = true := fun c hc => digits c (List.mem_of_mem_drop hc)
  grind [isDigit_of_mem_zeros, of_mem_exponentText]

theorem isBlank_of_mem_toText {c : Char} (front : 0 < d.significant.2) (h : c ∈ d.toText) :
    isBlank c = false := by
  obtain digit | mark := of_mem_toText front h
  · exact isBlank_of_isDigit digit
  · have marks : ∀ c ∈ ['.', 'e', '+', '-'], isBlank c = false := by simp [isBlank]
    exact marks c mark

/-- A decimal of a number past one starts in front of the point. -/
theorem significant_pos (h : stepsPerOne < d.count) : 0 < d.significant.2 := by
  by_contra behind
  obtain ⟨z, whole, point⟩ := d.exists_toDigits_eq
  have length := congrArg List.length whole
  rw [List.length_append, List.length_replicate] at length
  have fits := (Nat.length_toDigits_le_iff (by decide) (Nat.length_toDigits_pos)).1
    (le_refl (Nat.toDigits 10 d.digits).length)
  have small : d.numerator ≤ d.denominator := by
    rw [numerator, denominator, Int.toNat_of_nonpos (by omega : d.exponent ≤ 0), Nat.pow_zero, Nat.mul_one]
    exact fits.le.trans (Nat.pow_le_pow_right (by decide) (by omega))
  have one : IsCount stepsPerOne := by
    simpa using Number.isCount_mul_stepsPerOne (n := 1) (by decide)
  have count : d.count ≤ stepsPerOne := by
    rw [count_eq, Nat.mul_comm]
    exact Number.roundCount_le one (Nat.mul_le_mul_left _ small)
  omega

/-- The decimal for a whole number is rounded to it. -/
theorem count_shortest {n : Nat} (h : IsCount (n * stepsPerOne)) :
    (shortest (n * stepsPerOne)).count = n * stepsPerOne := by
  unfold shortest
  dsimp only
  generalize (List.range 17).flatMap _ = candidates
  cases found : candidates.find? fun d => d.count == n * stepsPerOne with
  | none =>
    have exact := Number.roundCount_mul_self Nat.one_pos h
    rw [Nat.mul_one] at exact
    rw [Option.getD_none, Nat.mul_div_cancel _ Number.stepsPerOne_pos]
    simpa [count] using exact
  | some d => simpa using List.find?_some found

end Decimal

namespace Number

variable {x y : Number}

/-- How a whole number is written is a numeral for it, which starts with a digit. -/
theorem exists_numeral {k : Nat} (h : x.toNat? = some k) : ∃ n, Numeral.read? x.chars = some n ∧ n.whole ≠ [] ∧
    ofNumeral false n = x ∧ ∀ c ∈ x.chars, isBlank c = false := by
  obtain ⟨c, hc, rfl, rfl⟩ := of_toNat? h
  have size : ((k : Int) * stepsPerOne).natAbs = k * stepsPerOne := Int.natAbs_mul k stepsPerOne
  have low : ¬ (k : Int) * stepsPerOne < 0 := mul_stepsPerOne_neg_iff.not.2 (Int.not_lt.2 (Int.natCast_nonneg k))
  rw [chars, if_neg low, countText, size, Nat.mul_mod_left, Nat.mul_div_cancel _ stepsPerOne_pos]
  split
  case isTrue =>
    have numeral := read?_of_forall_isDigit Nat.toDigits_ne_nil (isDigit_of_mem_toDigits (n := k))
    exact ⟨_, numeral, Nat.toDigits_ne_nil, ofNumeral_toDigits h,
      fun c hc => isBlank_of_isDigit (isDigit_of_mem_toDigits c hc)⟩
  case isFalse large =>
    have count : IsCount (k * stepsPerOne) := size ▸ hc
    have past : stepsPerOne < k * stepsPerOne := by
      have : 2 ^ 53 ≤ k := Nat.not_lt.1 fun small => large ⟨rfl, small⟩
      exact (Nat.lt_mul_iff_one_lt_left stepsPerOne_pos).2 (by omega)
    have shortest := Decimal.count_shortest count
    generalize Decimal.shortest (k * stepsPerOne) = d at shortest
    have front := Decimal.significant_pos (shortest ▸ past)
    have given : d.digits ≠ 0 := by
      intro none
      rw [Decimal.count_eq_zero none] at shortest
      omega
    obtain ⟨n, numeral, given, exponent, value⟩ := Decimal.read?_toText given front
    have rounded := (Decimal.count_eq_of_value_eq value).trans shortest
    have read := ofNumeral_of_count count (by omega) rounded exponent
    refine ⟨n, numeral, given, read.trans ?_, fun c => Decimal.isBlank_of_mem_toText front⟩
    congr 1

theorem read_chars {k : Nat} (h : x.toNat? = some k) : read x.chars = x := by
  obtain ⟨n, numeral, given, rfl, solid⟩ := exists_numeral h
  exact read_numeral numeral given solid

theorem toText_inj {j k : Nat} (hx : x.toNat? = some j) (hy : y.toNat? = some k)
    (h : x.toText = y.toText) : x = y := by
  rw [← read_chars hx, ← read_chars hy, String.ofList_injective h]

theorem head?_toText {k : Nat} (h : x.toNat? = some k) : x.toText.toList.head? ≠ some '-' := by
  obtain ⟨n, numeral, given, -, -⟩ := exists_numeral h
  rw [whole_eq numeral] at given
  rw [toText, String.toList_ofList]
  intro sign
  obtain ⟨t, ht⟩ := List.head?_eq_some_iff.1 sign
  rw [ht] at given
  exact given (List.takeWhile_cons_of_neg (by decide))

end Number

end Mender
