import Mender.Diagnostic
import Mender.Report.Row

/-! Reading a report. A section opens with a boundary, a heading and a boundary, and reaches to the
next boundary, which may open a section itself. Each entry of a section is one diagnostic. -/

namespace Mender.Report

open Mender.Text

structure Section where
  file : List Char
  column : Nat
  body : List Line

/-- The sections of a report. What stands outside of them is passed over. -/
def sections : List Line → List Section
  | boundary :: title :: closing :: rest =>
    if isBoundary boundary && isBoundary closing then
      match heading? title with
      | some file =>
        ⟨file, messageColumn boundary, rest.takeWhile (!isBoundary ·)⟩ :: sections rest
      | none => sections (title :: closing :: rest)
    else sections (title :: closing :: rest)
  | _ => []

/-- An entry that is being read. While it is `open`, wrapped lines go on with its message. -/
structure Entry where
  number : Number
  message : List Char
  code : Option (List Char)
  suggestion : Option (List Char)
  isOpen : Bool

namespace Entry

def start (number : Number) (text : List Char) : Entry := ⟨number, text, none, none, true⟩

/-- The entry after one more of its rows. The first identifier counts, if it comes before any
suggestion; so does the first suggestion. -/
def take (e : Entry) : Row → Entry
  | .code text =>
    { e with code := if e.suggestion.isSome then e.code else e.code.or (some text), isOpen := false }
  | .suggestion text => { e with suggestion := e.suggestion.or (some text), isOpen := false }
  | .marked => { e with isOpen := false }
  | .wrapped text =>
    if e.isOpen && text != [] then { e with message := e.message ++ ' ' :: text } else e
  | .entry .. => e

def nonEmpty (text? : Option (List Char)) : Option String :=
  (text?.filter (· != [])).map String.ofList

/-- The diagnostic that an entry is; lines count from one, so an entry for line zero is none. -/
def toDiagnostic? (file : List Char) (e : Entry) : Option Diagnostic :=
  if Number.le 1 e.number then
    some
      { message := String.ofList e.message
        file := String.ofList file
        line := e.number
        category := .classify e.message (e.code.getD [])
        code := nonEmpty e.code
        suggestion := nonEmpty e.suggestion }
  else none

end Entry

/-- The entries of a section's rows, `current?` being read. Rows before the first entry are passed
over. -/
def entriesFrom (current? : Option Entry) : List Row → List Entry
  | [] => current?.toList
  | .entry number text :: rows => current?.toList ++ entriesFrom (some (.start number text)) rows
  | row :: rows => entriesFrom (current?.map (·.take row)) rows

def Section.diagnostics (s : Section) : List Diagnostic :=
  (entriesFrom none (s.body.map (Row.read s.column))).filterMap (Entry.toDiagnostic? s.file)

def diagnostics (report : List Char) : List Diagnostic :=
  (sections (linesOf report)).flatMap Section.diagnostics

end Mender.Report
