import Mender.Text.Split

/-! Quoted texts, for messages that show what came from outside. Of three quotes the first one is taken
that the text does not hold; backslashes and control characters are escaped, and so is the quote if the
text holds all three. Long texts are quoted line by line, and cut where they exceed what a message may
take; lengths are counted in units of sixteen bits. -/

namespace Mender.Text

/-- How many units of sixteen bits a text takes. -/
def units (s : List Char) : Nat := s.length + s.countP fun c => 0x10000 ≤ c.toNat

/-- The longest start of a text that takes at most `n` units. -/
def takeUnits (n : Nat) : List Char → List Char
  | [] => []
  | c :: s => if units [c] ≤ n then c :: takeUnits (n - units [c]) s else []

def isControl (c : Char) : Bool := c.toNat < 0x20 || (0x7F ≤ c.toNat && c.toNat < 0xA0)

def quoteFor (s : List Char) : Char :=
  if !s.contains '\x27' then '\x27'
  else if !s.contains '"' then '"'
  else if !s.contains '\x60' && !occursIn ['$', '\x7b'] s then '\x60'
  else '\x27'

def upperHexDigit (n : Nat) : Char := (Nat.digitChar n).toUpper

def quotedChar (quote c : Char) : List Char :=
  if c = quote ∨ c = '\\' then ['\\', c]
  else if c = '\x08' then ['\\', 'b']
  else if c = '\t' then ['\\', 't']
  else if c = '\n' then ['\\', 'n']
  else if c = '\x0c' then ['\\', 'f']
  else if c = '\r' then ['\\', 'r']
  else if isControl c then ['\\', 'x', upperHexDigit (c.toNat / 16), upperHexDigit (c.toNat % 16)]
  else [c]

def quoteLine (s : List Char) : List Char :=
  let quote := quoteFor s
  quote :: s.flatMap (quotedChar quote) ++ [quote]

/-- The lines of a text, each with the line feed that ends it. -/
def endedLines (s : List Char) : List (List Char) :=
  let ls := lines s
  ls.dropLast.map (· ++ ['\n']) ++ ls.getLast?.toList.filter (· != [])

/-- A text between quotes. If it takes more than 76 units, its lines are quoted each. -/
def quoted (s : List Char) : List Char :=
  if units s ≤ 76 then quoteLine s else " +\n  ".toList.intercalate ((endedLines s).map quoteLine)

/-- A text of at most 128 units, with three points where more is left out. -/
def abbreviated (s : List Char) : List Char :=
  if units s ≤ 128 then s else takeUnits 128 s ++ "...".toList

example : quoted "it\x27s".toList = "\"it\x27s\"".toList := by decide +kernel

end Mender.Text
