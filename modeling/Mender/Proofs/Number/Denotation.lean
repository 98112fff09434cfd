import Mender.Proofs.Number.Decimal

/-! The exact value of a numeral, before it is rounded to a number. A text that is read as a whole number is
blank, or a numeral for some value, which may be another one that is rounded to it. -/

namespace Mender

open Mender.Text

namespace Number

def magnitude? (s : List Char) : Option ℚ := (Numeral.read? s).map fun n => n.decimal.value

def denoted? (text : List Char) : Option ℚ :=
  match trim text with
  | '-' :: s => (magnitude? s).map fun q => -q
  | '+' :: s => magnitude? s
  | '0' :: mark :: s =>
    let base? : Option Nat :=
      if mark = 'x' ∨ mark = 'X' then some 16
      else if mark = 'o' ∨ mark = 'O' then some 8
      else if mark = 'b' ∨ mark = 'B' then some 2
      else none
    match base? with
    | some base => (readDigits? base s).map fun n : Nat => (n : ℚ)
    | none => magnitude? ('0' :: mark :: s)
  | s => magnitude? s

variable {negative : Bool} {s : List Char}

theorem isSome_magnitude? (h : (readMagnitude negative s).isInteger = true) : (magnitude? s).isSome = true := by
  unfold readMagnitude at h
  split at h
  case isTrue => cases h
  case isFalse =>
    cases hn : Numeral.read? s with
    | none =>
      rw [hn] at h
      cases h
    | some n =>
      rw [magnitude?, hn]
      rfl

/-- What is read as a whole number and is not blank is a numeral. -/
theorem isSome_denoted? (given : trim s ≠ []) (h : (read s).isInteger = true) :
    (denoted? s).isSome = true := by
  unfold read at h
  unfold denoted?
  generalize trim s = t at h given
  split at h
  case h_1 => exact absurd rfl given
  case h_2 s =>
    change ((magnitude? s).map fun q => -q).isSome = true
    rw [Option.isSome_map]
    exact isSome_magnitude? h
  case h_3 s => exact isSome_magnitude? h
  case h_4 mark s =>
    dsimp only at h
    split at h
    case h_1 base hbase =>
      have digits : ((readDigits? base s).map fun n : Nat => (n : ℚ)).isSome = true := by
        cases hn : readDigits? base s with
        | none =>
          rw [hn] at h
          cases h
        | some n => rfl
      simpa only [hbase] using digits
    case h_2 hbase => simpa only [hbase] using isSome_magnitude? h
  case h_5 other minus plus marked =>
    split
    case h_1 s => exact absurd rfl (minus s)
    case h_2 s => exact absurd rfl (plus s)
    case h_3 mark s => exact absurd rfl (marked mark s)
    case h_4 => exact isSome_magnitude? h

end Number
end Mender
