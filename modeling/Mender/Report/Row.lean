import Mender.Number.Numeral
import Mender.Text.Split

/-! The lines of a table of findings. A boundary draws the columns, a heading names the file, and
between boundaries a line is an entry, its rule's identifier, a suggestion, another marked line, or
more text of the message. -/

namespace Mender.Report

open Mender.Text

/-- A line of a report, its end taken off. -/
abbrev Line := List Char

/-- The lines of a report; a carriage return before the line feed belongs to the line's end. -/
def linesOf (report : List Char) : List Line :=
  (lines report).map fun l => if l.getLast? = some '\r' then l.dropLast else l

/-- A boundary is two or more runs of at least two dashes, parted by blanks. -/
def isBoundary (l : Line) : Bool :=
  let runs := words l
  2 ≤ runs.length && runs.all fun run => 2 ≤ run.length && run.all (· == '-')

def messageColumn (boundary : Line) : Nat :=
  let run := trimStart boundary
  boundary.length - (trimStart (run.dropWhile (· == '-'))).length

/-- Text that stays on one line once it is trimmed. -/
def oneLine? (s : List Char) : Option (List Char) :=
  let text := trim s
  if text.any isLineEnd then none else some text

/-- Text that is not blank and stays on one line, set off by at least one blank. -/
def setOff? : List Char → Option (List Char)
  | c :: s => if isBlank c && (trim s != []) then oneLine? s else none
  | [] => none

/-- The file named by a heading: the word `Line`, and after it the name. -/
def heading? (l : Line) : Option (List Char) :=
  (dropMark? "Line".toList (trimStart l)).bind setOff?

inductive Row where
  | entry (number : Number) (said : List Char)
  | code (said : List Char)
  | suggestion (said : List Char)
  | marked
  | wrapped (said : List Char)
  deriving DecidableEq

/-- An entry is a row of digits with text after it, indented less than the messages are. -/
def entry? (column : Nat) (l : Line) : Option Row :=
  let numbered := trimStart l
  let digits := numbered.takeWhile Char.isDigit
  if digits = [] ∨ column ≤ l.length - numbered.length then none
  else (setOff? (numbered.dropWhile Char.isDigit)).map (.entry (.ofNat (readDecimal digits)))

/-- The signs that mark a line: an identifier's, a suggestion's, and that of a link to an editor. -/
def codeSign : List Char := ['🪪']

def suggestionSign : List Char := ['💡']

def linkSign : List Char := ['✏', '\uFE0F']

/-- What a line with this sign says, if it says it on one line. -/
def signed? (sign : List Char) (l : Line) : Option (List Char) :=
  (dropMark? sign (trimStart l)).bind oneLine?

def isMarked (l : Line) : Bool :=
  [codeSign, suggestionSign, linkSign].any (·.isPrefixOf (trimStart l))

def Row.read (column : Nat) (l : Line) : Row :=
  match entry? column l with
  | some row => row
  | none =>
    match signed? codeSign l, signed? suggestionSign l with
    | some text, _ => .code text
    | none, some text => .suggestion text
    | none, none => if isMarked l then .marked else .wrapped (trim l)

end Mender.Report
