import Mender.Number.Numeral

/-! Writing a number with the fewest digits that read back as it. Of two such decimals the nearer is
written, and from the middle the one whose last digit is even. -/

namespace Mender

/-- The decimal `digits * 10 ^ exponent`. -/
structure Decimal where
  digits : Nat
  exponent : Int
  deriving DecidableEq

namespace Decimal

def count (d : Decimal) : Nat :=
  if 0 ≤ d.exponent then Number.roundCount (d.digits * 10 ^ d.exponent.toNat * stepsPerOne) 1
  else Number.roundCount (d.digits * stepsPerOne) (10 ^ (-d.exponent).toNat)

/-- Where the digits of a count start: the first power of ten past it. -/
def magnitude (count : Nat) : Int :=
  if stepsPerOne ≤ count then (Nat.toDigits 10 (count / stepsPerOne)).length
  else
    match (List.range 400).find? fun j => stepsPerOne ≤ count * 10 ^ j with
    | some j => 1 - j
    | none => 0

/-- The two decimals of this exponent on either side of a count, the better one first. -/
def neighbours (count : Nat) (exponent : Int) : List Decimal :=
  let (num, den) : Nat × Nat :=
    if 0 ≤ exponent then (count, stepsPerOne * 10 ^ exponent.toNat)
    else (count * 10 ^ (-exponent).toNat, stepsPerOne)
  let below := num / den
  let best := Number.roundDiv num den
  [⟨best, exponent⟩, ⟨if best = below then below + 1 else below, exponent⟩]

/-- A decimal with the fewest digits among those that read back as a count. Seventeen are always
enough. -/
def shortest (count : Nat) : Decimal :=
  let top := magnitude count
  let candidates := (List.range 17).flatMap fun k : Nat => neighbours count (top - (k + 1 : Nat))
  (candidates.find? fun d => d.count == count).getD ⟨count / stepsPerOne, 0⟩

/-- The digits without the zeros at their end, and the power of ten past the first of them. -/
def significant (d : Decimal) : List Char × Int :=
  let digits := Nat.toDigits 10 d.digits
  (Text.dropEndWhile (· == '0') digits, digits.length + d.exponent)

def zeros (n : Int) : List Char := List.replicate n.toNat '0'

def exponentText (e : Int) : List Char :=
  'e' :: (if e < 0 then '-' else '+') :: Nat.toDigits 10 e.natAbs

/-- A decimal is written out in full below 10^21 and from 10^-6 on, with an exponent elsewhere. -/
def toText (d : Decimal) : List Char :=
  let (digits, point) := d.significant
  if digits.length ≤ point ∧ point ≤ 21 then digits ++ zeros (point - digits.length)
  else if 0 < point ∧ point ≤ 21 then digits.take point.toNat ++ '.' :: digits.drop point.toNat
  else if -6 < point ∧ point ≤ 0 then "0.".toList ++ zeros (-point) ++ digits
  else
    match digits with
    | [] => []
    | [digit] => digit :: exponentText (point - 1)
    | digit :: more => digit :: '.' :: more ++ exponentText (point - 1)

end Decimal

namespace Number

def countText (count : Nat) : List Char :=
  if count % stepsPerOne = 0 ∧ count / stepsPerOne < 2 ^ 53 then
    Nat.toDigits 10 (count / stepsPerOne)
  else (Decimal.shortest count).toText

def chars : Number → List Char
  | .nan => "NaN".toList
  | .infinite negative => (if negative then "-Infinity" else "Infinity").toList
  | .finite count _ => if count < 0 then '-' :: countText count.natAbs else countText count.natAbs

def toText (x : Number) : String := String.ofList x.chars

end Number
end Mender
