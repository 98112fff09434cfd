import Mender.Number.Numeral

/-! Values for records and logs, and the order of an object's members: names that are whole numbers
come first, from the smallest to the largest, and all others follow as they were put in. -/

namespace Mender

/-- A value. One that is `absent` is left out of objects and stands as a null elsewhere. -/
inductive Json where
  | absent
  | null
  | bool (b : Bool)
  | number (n : Number)
  | text (s : String)
  | list (items : List Json)
  | object (members : List (String × Json))
deriving Inhabited

namespace Json

def isAbsent : Json → Bool
  | .absent => true
  | _ => false

def ofOption {α : Type} (f : α → Json) (a? : Option α) : Json := (a?.map f).getD .absent

/-- The place that a name has of itself: that of the whole number it writes, if that number is below
2^32 - 1 and written without sign or leading zeros. -/
def index? (name : String) : Option Nat := do
  let n ← readDigits? 10 name.toList
  if n < 2 ^ 32 - 1 ∧ Nat.toDigits 10 n = name.toList then some n else none

variable {α : Type}

/-- The members with whole-number names in order, then the others as they stand. -/
def inOrder (members : List (String × α)) : List (String × α) :=
  let place (m : String × α) : Nat := (index? m.1).getD 0
  (members.filter fun m => (index? m.1).isSome).mergeSort (fun a b => place a ≤ place b) ++
    members.filter fun m => (index? m.1).isNone

/-- Sets a member: in its place if the name is there, at the end if it is not. -/
def put (name : String) (value : α) : List (String × α) → List (String × α)
  | [] => [(name, value)]
  | m :: ms => if m.1 = name then (name, value) :: ms else m :: put name value ms

def putAll (pairs : List (String × α)) : List (String × α) :=
  pairs.foldl (fun members (name, value) => put name value members) []

def byName (members : List (String × α)) : List (String × α) :=
  members.mergeSort fun a b => a.1 ≤ b.1

end Json
end Mender
