import Mender.Fix.Basic
import Mender.Markup.Element

/-! Reading the fixes out of a model's answer. They are looked for between the first `fixes` tags, or
in the whole answer if there are none. A block that lacks a part, or whose file or line is no such
thing, is skipped and told why. -/

namespace Mender.Answer

open Mender.Text Mender.Markup

inductive Issue where
  | fileMissing
  | fileEmpty
  | lineNotNumber
  | lineNotWhole
  | lineNotPositive
  | fixedMissing
  deriving DecidableEq

namespace Issue

def message : Issue → String
  | .fileMissing => "file: Required"
  | .fileEmpty => "file: String must contain at least 1 character(s)"
  | .lineNotNumber => "line: Expected number, received nan"
  | .lineNotWhole => "line: Expected integer, received float"
  | .lineNotPositive => "line: Number must be greater than 0"
  | .fixedMissing => "fixed: Required"

def messageOf (issues : List Issue) : String :=
  "⚠️ Skipping malformed fix: " ++ "; ".intercalate (issues.map message)

end Issue

/-- The text of the first element of this name. -/
def field? (name : String) (block : List Char) : Option (List Char) :=
  (element? name.toList block).map fun (raw, _) => readText raw

def fileIssues : Option (List Char) → List Issue
  | none => [.fileMissing]
  | some file => if trim file = [] then [.fileEmpty] else []

def lineIssues (line : Number) : List Issue :=
  if line = .nan then [.lineNotNumber]
  else
    (if line.isInteger then [] else [.lineNotWhole]) ++
      if Number.lt 0 line then [] else [.lineNotPositive]

def fixedIssues (fixed? : Option (List Char)) : List Issue :=
  if fixed?.isNone then [.fixedMissing] else []

/-- The line that a block names; no number if it names none. -/
def lineOf (block : List Char) : Number :=
  ((field? "line" block).map Number.read).getD .nan

/-- The fix that a block spells, or everything that is wrong with it. -/
def readBlock (block : List Char) : Except (List Issue) Fix :=
  let file? := field? "file" block
  let line := lineOf block
  let fixed? := field? "fixed" block
  match fileIssues file? ++ lineIssues line ++ fixedIssues fixed? with
  | [] =>
    .ok
      { file := String.ofList (trim (file?.getD []))
        line
        before := String.ofList ((field? "original" block).getD [])
        fixed := String.ofList (fixed?.getD []) }
  | issues => .error issues

/-- The part of an answer in which fixes are looked for. -/
def scope (answer : List Char) : List Char :=
  ((element? "fixes".toList answer).map (·.1)).getD answer

def blocks (answer : List Char) : List (Except (List Issue) Fix) :=
  (elements "fix".toList (scope answer)).map readBlock

def fixes (answer : List Char) : List Fix :=
  (blocks answer).filterMap Except.toOption

/-- What is wrong with each block that was skipped. -/
def skipped (answer : List Char) : List (List Issue) :=
  (blocks answer).filterMap fun
    | .ok _ => none
    | .error issues => some issues

end Mender.Answer
