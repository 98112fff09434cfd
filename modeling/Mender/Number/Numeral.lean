import Mender.Number.Basic
import Mender.Text.Blank

/-! Numerals, and the numbers they write: decimal ones with an optional sign, point and exponent, and
whole ones of base sixteen, eight and two with their marks. A numeral reads as the number nearest to
its value; blank text reads as zero, and any other text as a NaN. -/

namespace Mender

open Mender.Text

/-- What a digit counts in bases up to sixteen. -/
def digitValue? (c : Char) : Option Nat :=
  if '0' ≤ c ∧ c ≤ '9' then some (c.toNat - '0'.toNat)
  else if 'a' ≤ c ∧ c ≤ 'f' then some (c.toNat - 'a'.toNat + 10)
  else if 'A' ≤ c ∧ c ≤ 'F' then some (c.toNat - 'A'.toNat + 10)
  else none

/-- The value of a row of digits; `none` if there is no digit, or a character that is none. -/
def readDigits? (base : Nat) (s : List Char) : Option Nat :=
  if s.isEmpty then none
  else s.foldlM (fun n c => do
    let d ← digitValue? c
    if d < base then some (n * base + d) else none) 0

def readDecimal (s : List Char) : Nat := (readDigits? 10 s).getD 0

/-- A decimal numeral without its sign: the digits before and after the point, and the exponent. -/
structure Numeral where
  whole : List Char
  fraction : List Char
  exponent : Int
  deriving DecidableEq

namespace Numeral

def readExponent? : List Char → Option Int
  | '-' :: s => (readDigits? 10 s).map fun n => -(n : Int)
  | '+' :: s => (readDigits? 10 s).map fun n => (n : Int)
  | s => (readDigits? 10 s).map fun n => (n : Int)

def read? (s : List Char) : Option Numeral :=
  let whole := s.takeWhile Char.isDigit
  let (fraction, r) : List Char × List Char :=
    match s.dropWhile Char.isDigit with
    | '.' :: r => (r.takeWhile Char.isDigit, r.dropWhile Char.isDigit)
    | r => ([], r)
  if whole.isEmpty && fraction.isEmpty then none
  else
    match r with
    | [] => some ⟨whole, fraction, 0⟩
    | e :: r => if e = 'e' ∨ e = 'E' then (readExponent? r).map (⟨whole, fraction, ·⟩) else none

end Numeral

namespace Number

def ofDecimal (negative : Bool) (digits : Nat) (exponent : Int) : Number :=
  if 0 ≤ exponent then ofSteps negative (digits * 10 ^ exponent.toNat * stepsPerOne) 1
  else ofSteps negative (digits * stepsPerOne) (10 ^ (-exponent).toNat)

/-- The number nearest to a numeral's value. An exponent far outside the range of the numbers is
answered without writing its power of ten out. -/
def ofNumeral (negative : Bool) (n : Numeral) : Number :=
  let digits := readDecimal (n.whole ++ n.fraction)
  let exponent := n.exponent - n.fraction.length
  if digits = 0 then 0
  else if 400 < exponent then .infinite negative
  else if exponent < -400 - (n.whole.length + n.fraction.length) then 0
  else ofDecimal negative digits exponent

def readMagnitude (negative : Bool) (s : List Char) : Number :=
  if s = "Infinity".toList then .infinite negative
  else ((Numeral.read? s).map (ofNumeral negative)).getD .nan

def read (text : List Char) : Number :=
  match trim text with
  | [] => 0
  | '-' :: s => readMagnitude true s
  | '+' :: s => readMagnitude false s
  | '0' :: mark :: s =>
    let base? : Option Nat :=
      if mark = 'x' ∨ mark = 'X' then some 16
      else if mark = 'o' ∨ mark = 'O' then some 8
      else if mark = 'b' ∨ mark = 'B' then some 2
      else none
    match base? with
    | some base => ((readDigits? base s).map ofNat).getD .nan
    | none => readMagnitude false ('0' :: mark :: s)
  | s => readMagnitude false s

end Number
end Mender
