import Mender.Proofs.Number.Whole
import Mender.Proofs.Text.Phrase

/-! Whole numbers in decimal. Reading the digits of a number gives the number back, however large it is. -/

namespace Mender

open Mender.Text

section Digits

theorem isBlank_of_isDigit {c : Char} (h : c.isDigit = true) : isBlank c = false := by
  obtain ⟨hlow, hhigh⟩ := Char.isDigit_iff_toNat.1 h
  have low : 48 ≤ c.toNat := hlow
  have high : c.toNat ≤ 57 := hhigh
  grind [isBlank]

theorem digitValue?_of_isDigit {c : Char} (h : c.isDigit = true) :
    digitValue? c = some (c.toNat - '0'.toNat) ∧ c.toNat - '0'.toNat < 10 := by
  obtain ⟨low, high⟩ := Char.isDigit_iff_toNat.1 h
  refine ⟨if_pos ⟨low, high⟩, ?_⟩
  have : c.toNat ≤ 57 := high
  have : '0'.toNat = 48 := rfl
  omega

theorem readDigits?_of_forall_isDigit {s : List Char} (hne : s ≠ [])
    (h : ∀ c ∈ s, c.isDigit = true) : readDigits? 10 s = some (Nat.ofDigitChars 10 s 0) := by
  rw [readDigits?, if_neg (by simpa using hne)]
  clear hne
  generalize 0 = n
  induction s generalizing n with
  | nil => simp
  | cons c s ih =>
    rw [List.forall_mem_cons] at h
    obtain ⟨hvalue, hlt⟩ := digitValue?_of_isDigit h.1
    rw [List.foldlM_cons, hvalue, Nat.ofDigitChars_cons]
    simp only [Option.bind_eq_bind, Option.bind_some, if_pos hlt, Nat.mul_comm n 10]
    exact ih h.2 _

theorem readDecimal_toDigits (n : Nat) : readDecimal (Nat.toDigits 10 n) = n := by
  have digits : ∀ c ∈ Nat.toDigits 10 n, c.isDigit = true := fun _ =>
    Nat.isDigit_of_mem_toDigits (by decide) (by decide)
  rw [readDecimal, readDigits?_of_forall_isDigit Nat.toDigits_ne_nil digits,
    Nat.ofDigitChars_ten_toDigits, Option.getD_some]

end Digits

namespace Number

theorem isDigit_of_mem_toDigits {n : Nat} : ∀ c ∈ Nat.toDigits 10 n, c.isDigit = true := fun _ =>
  Nat.isDigit_of_mem_toDigits (by decide) (by decide)

theorem read?_of_forall_isDigit {s : List Char} (hne : s ≠ []) (h : ∀ c ∈ s, c.isDigit = true) :
    Numeral.read? s = some ⟨s, [], 0⟩ := by
  have whole : s.takeWhile Char.isDigit = s := by simpa using h
  have rest : s.dropWhile Char.isDigit = [] := by simpa using h
  simp [Numeral.read?, whole, rest, hne]

theorem ofNumeral_toDigits {x : Number} {n : Nat} (h : x.toNat? = some n) :
    ofNumeral false ⟨Nat.toDigits 10 n, [], 0⟩ = x := by
  obtain ⟨c, hc, rfl, rfl⟩ := of_toNat? h
  have exact : ofSteps false (n * stepsPerOne) 1 = .finite (n * stepsPerOne) hc := by
    have sign : ¬ (n : Int) < 0 := Int.not_lt.2 (Int.natCast_nonneg n)
    rw [← ofInt_eq hc, ofInt, decide_eq_false sign, Int.natAbs_natCast]
  have low : ¬ (400 : Int) < 0 - ([] : List Char).length := by simp
  have high : ¬ (0 : Int) - ([] : List Char).length <
      -400 - ((Nat.toDigits 10 n).length + ([] : List Char).length) := by
    simp only [List.length_nil]
    omega
  simp only [ofNumeral, List.append_nil, readDecimal_toDigits, if_neg low, if_neg high]
  split
  case isTrue hn =>
    subst hn
    simp [zero_eq]
  case isFalse =>
    simp [ofDecimal, exact]

section Read

variable {s : List Char} {n : Numeral}

theorem whole_eq (h : Numeral.read? s = some n) : n.whole = s.takeWhile Char.isDigit := by
  unfold Numeral.read? at h
  dsimp only at h
  -- the digits in front are the same with a point behind them and without
  split at h <;> split at h
  case h_1.isTrue | h_2.isTrue => cases h
  all_goals
    split at h
    case h_1 =>
      cases h
      rfl
    case h_2 =>
      split at h
      case isTrue =>
        obtain ⟨i, -, rfl⟩ := Option.map_eq_some_iff.1 h
        rfl
      case isFalse => cases h

/-- A numeral that starts with a digit and holds no blanks is read as its value. -/
theorem read_numeral (h : Numeral.read? s = some n) (given : n.whole ≠ [])
    (solid : ∀ c ∈ s, isBlank c = false) : read s = ofNumeral false n := by
  obtain ⟨c, t, rfl, digit⟩ : ∃ c t, s = c :: t ∧ c.isDigit = true := by
    rw [whole_eq h] at given
    cases s with
    | nil => exact absurd rfl given
    | cons c t =>
      refine ⟨c, t, rfl, ?_⟩
      by_contra other
      exact given (List.takeWhile_cons_of_neg other)
  have trimmed : trim (c :: t) = c :: t := by
    rw [trim, trimStart_of_head fun c hc => solid c (List.mem_of_head? hc),
      trimEnd_of_getLast fun c hc => solid c (List.mem_of_getLast? hc)]
  have magnitude : readMagnitude false (c :: t) = ofNumeral false n := by
    have noName : c :: t ≠ "Infinity".toList := by
      rintro heq
      obtain rfl := (List.cons.inj heq).1
      cases digit
    rw [readMagnitude, if_neg noName, h, Option.map_some, Option.getD_some]
  rw [← magnitude, read, trimmed]
  split
  case h_1 none => cases none
  case h_2 heq | h_3 heq =>
    obtain rfl := (List.cons.inj heq).1
    cases digit
  case h_4 mark s heq =>
    have unmarked : mark ≠ 'x' ∧ mark ≠ 'X' ∧ mark ≠ 'o' ∧ mark ≠ 'O' ∧ mark ≠ 'b' ∧ mark ≠ 'B' := by
      rw [heq] at h
      refine ⟨?_, ?_, ?_, ?_, ?_, ?_⟩ <;>
      · rintro rfl
        simp [Numeral.read?] at h
    simp [unmarked, heq]
  case h_5 => rfl

end Read

theorem read_toDigits {x : Number} {n : Nat} (h : x.toNat? = some n) : read (Nat.toDigits 10 n) = x := by
  have numeral := read?_of_forall_isDigit Nat.toDigits_ne_nil (isDigit_of_mem_toDigits (n := n))
  rw [read_numeral numeral Nat.toDigits_ne_nil fun c hc => isBlank_of_isDigit (isDigit_of_mem_toDigits c hc),
    ofNumeral_toDigits h]

end Number
end Mender
