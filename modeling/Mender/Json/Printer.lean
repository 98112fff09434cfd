import Mender.Json.Basic
import Mender.Number.Shortest

/-! Values as indented text: two spaces for each level, an empty list or object on one line. Numbers
without a value print as a null. -/

namespace Mender.Json

/-- The two lower-case hexadecimal digits of a control character. -/
def hexDigits (n : Nat) : List Char := [Nat.digitChar (n / 16), Nat.digitChar (n % 16)]

def escapeChar (c : Char) : List Char :=
  if c = '"' then ['\\', '"']
  else if c = '\\' then ['\\', '\\']
  else if c = '\n' then ['\\', 'n']
  else if c = '\r' then ['\\', 'r']
  else if c = '\t' then ['\\', 't']
  else if c = '\x08' then ['\\', 'b']
  else if c = '\x0c' then ['\\', 'f']
  else if c.toNat < 0x20 then "\\u00".toList ++ hexDigits c.toNat
  else [c]

def quote (s : String) : List Char := '"' :: s.toList.flatMap escapeChar ++ ['"']

def newLine (depth : Nat) : List Char := '\n' :: List.replicate (2 * depth) ' '

/-- Items between brackets, each on a line of its own one level in. -/
def bracket (opening closing : Char) (depth : Nat) (items : List (List Char)) : List Char :=
  if items.isEmpty then [opening, closing]
  else
    opening :: newLine (depth + 1) ++ (',' :: newLine (depth + 1)).intercalate items ++
      newLine depth ++ [closing]

mutual

def print (depth : Nat) : Json → List Char
  | .absent | .null => "null".toList
  | .bool b => (if b then "true" else "false").toList
  | .number n =>
    match n with
    | .finite .. => n.chars
    | _ => "null".toList
  | .text s => quote s
  | .list items => bracket '[' ']' depth (printItems (depth + 1) items)
  | .object members => bracket '\x7b' '\x7d' depth (printMembers (depth + 1) members)

def printItems (depth : Nat) : List Json → List (List Char)
  | [] => []
  | item :: items => print depth item :: printItems depth items

def printMembers (depth : Nat) : List (String × Json) → List (List Char)
  | [] => []
  | (name, value) :: members =>
    if value.isAbsent then printMembers depth members
    else (quote name ++ ": ".toList ++ print depth value) :: printMembers depth members

end

def toText : Json → String
  | .absent => "undefined"
  | value => String.ofList (value.print 0)

end Mender.Json
