import Mender.Text.Split

/-! Places in a file tree. A place is the list of names on the way from the root, none of them empty,
`.` or `..`; a text is resolved against a place by taking its names one after the other. -/

namespace Mender

open Mender.Text

abbrev Name := List Char

abbrev Path := List Name

namespace Path

def here : Name := ['.']

def up : Name := ['.', '.']

/-- The names in a text, with an empty one wherever a slash has no name beside it. -/
def namesOf (text : List Char) : List Name := splitWhere (· == '/') text

def isAbsolute (text : List Char) : Bool := text.head? == some '/'

/-- One name further: an empty name and `.` stay, `..` goes up, the root being above itself. -/
def step (p : Path) (name : Name) : Path :=
  if name = [] ∨ name = here then p
  else if name = up then p.dropLast
  else p ++ [name]

def resolve (base : Path) (text : List Char) : Path :=
  (namesOf text).foldl step (if isAbsolute text then [] else base)

def chars (p : Path) : List Char := '/' :: ['/'].intercalate p

def toText (p : Path) : String := String.ofList p.chars

def common : Path → Path → Path
  | a :: p, b :: q => if a = b then a :: common p q else []
  | _, _ => []

/-- The text that names `target` as seen from `base`: up to where the ways part, then down. -/
def relative (base target : Path) : List Char :=
  let shared := (common base target).length
  ['/'].intercalate (List.replicate (base.length - shared) up ++ target.drop shared)

/-- Whether a place is `base` or below it: the way there does not start by going up. -/
def contains (base target : Path) : Bool :=
  let way := relative base target
  !(way == up || (up ++ ['/']).isPrefixOf way || isAbsolute way)

def stepText (p : Path) (name : Name) : Path :=
  if name = up ∧ (p = [] ∨ p.getLast? = some up) then p ++ [up] else step p name

/-- The shortest text for a name under the text of a directory. -/
def join (directory : List Char) (name : Name) : List Char :=
  if isAbsolute directory then chars (resolve [] directory ++ [name])
  else ['/'].intercalate ((namesOf directory).foldl stepText [] ++ [name])

end Path
end Mender
