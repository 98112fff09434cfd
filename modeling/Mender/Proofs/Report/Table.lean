import Mender.Proofs.Text.Phrase
import Mender.Report.Section

/-! Reports as they are written: tables of findings, one for each file, and lines around them that are
neither boundaries nor headings. Blanks are free wherever the layout does not depend on them. -/

namespace Mender.Report

open Mender.Text

/-- A boundary of two columns. -/
structure Ruling where
  indent : Gap
  first : Nat
  gap : Gap
  second : Nat
  two_le_first : 2 ≤ first
  gap_ne_nil : gap.chars ≠ []
  two_le_second : 2 ≤ second

namespace Ruling

def line (r : Ruling) : Line :=
  r.indent.chars ++ (List.replicate r.first '-' ++ (r.gap.chars ++ List.replicate r.second '-'))

def column (r : Ruling) : Nat := r.indent.chars.length + r.first + r.gap.chars.length

end Ruling

/-- More of a message, in the column of the messages. -/
structure Continuation (column : Nat) where
  indent : Gap
  text : Phrase
  column_le : column ≤ indent.chars.length
  not_boundary : isBoundary text.chars = false
  not_marked : isMarked text.chars = false

structure Remark where
  indent : Gap
  gap : Gap
  text : Phrase

def Remark.line (r : Remark) (sign : List Char) : Line :=
  r.indent.chars ++ (sign ++ (r.gap.chars ++ r.text.chars))

/-- One finding of a table whose messages are in this column. -/
structure Item (column : Nat) where
  indent : Gap
  number : Nat
  gap : Gap
  text : Phrase
  more : List (Continuation column)
  code : Option Remark
  suggestion : Option Remark
  lt_column : indent.chars.length < column
  number_pos : 0 < number
  number_lt : number < 2 ^ 53
  gap_ne_nil : gap.chars ≠ []

namespace Item

variable {column : Nat} (i : Item column)

def firstLine : Line := i.indent.chars ++ (Nat.toDigits 10 i.number ++ (i.gap.chars ++ i.text.chars))

def lines : List Line :=
  i.firstLine :: (i.more.map (fun c => c.indent.chars ++ c.text.chars) ++
    (i.code.toList.map (·.line codeSign) ++ i.suggestion.toList.map (·.line suggestionSign)))

def message : List Char := [' '].intercalate (i.text.chars :: i.more.map (·.text.chars))

def diagnostic (file : List Char) : Diagnostic where
  message := String.ofList i.message
  file := String.ofList file
  line := .ofNat i.number
  category := .classify i.message ((i.code.map (·.text.chars)).getD [])
  code := i.code.map fun r => String.ofList r.text.chars
  suggestion := i.suggestion.map fun r => String.ofList r.text.chars

end Item

structure Table where
  opening : Ruling
  indent : Gap
  gap : Gap
  file : Phrase
  lower : Ruling
  items : List (Item opening.column)
  closing : Ruling
  gap_ne_nil : gap.chars ≠ []

namespace Table

variable (t : Table)

def title : Line := t.indent.chars ++ ("Line".toList ++ (t.gap.chars ++ t.file.chars))

def body : List Line := t.items.flatMap Item.lines

def lines : List Line := t.opening.line :: t.title :: t.lower.line :: (t.body ++ [t.closing.line])

def diagnostics : List Diagnostic := t.items.map (·.diagnostic t.file.chars)

end Table

structure Aside where
  line : Line
  inline : '\n' ∉ line
  not_boundary : isBoundary line = false
  not_heading : heading? line = none

/-- A report: what stands before the first table, and the tables, each with what stands after it. -/
structure Layout where
  before : List Aside
  tables : List (Table × List Aside)

namespace Layout

def lines (l : Layout) : List Line :=
  l.before.map Aside.line ++ l.tables.flatMap fun (t, after) => t.lines ++ after.map Aside.line

def text (l : Layout) : List Char := unlines l.lines

def diagnostics (l : Layout) : List Diagnostic := l.tables.flatMap fun (t, _) => t.diagnostics

end Layout
end Mender.Report
