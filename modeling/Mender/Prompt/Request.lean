import Mender.Batch.Wire
import Mender.Markup.Entity
import Mender.Text.Split

/-! The user prompt: the batch on the wire, then every file it names with its lines numbered, so that
a line of the answer can be told by its number. -/

namespace Mender.Prompt

open Mender.Text Mender.Markup

/-- A number, set to the right in a column. -/
def label (width n : Nat) : List Char :=
  let digits := Nat.toDigits 10 n
  List.replicate (width - digits.length) ' ' ++ digits

def numberedLines (content : List Char) : List (List Char) :=
  let ls := lines content
  let width := (Nat.toDigits 10 ls.length).length
  ls.mapIdx fun i l => label width (i + 1) ++ " | ".toList ++ l

def numberLines (content : List Char) : List Char := unlines (numberedLines content)

/-- Names that every plain object knows, whatever its members are. -/
def inheritedNames : List String :=
  ["constructor", "__defineGetter__", "__defineSetter__", "hasOwnProperty", "__lookupGetter__",
    "__lookupSetter__", "isPrototypeOf", "propertyIsEnumerable", "toString", "valueOf", reservedName,
    "toLocaleString"]

/-- The content that a request has for a file. A file named like something that every object knows
finds that, which is no text. -/
def content? (r : Request) (file : String) : Except Failure (Option String) :=
  match r.contents.lookup file with
  | some content => .ok (some content)
  | none => if file ∈ inheritedNames then .error .contentNotText else .ok none

def fileElement (file : String) (content? : Option String) : List Char :=
  let opening := "    <file path=\"".toList ++ escape file.toList
  match content? with
  | none => opening ++ "\" missing=\"true\" />".toList
  | some content => opening ++ "\">\n".toList ++ numberLines content.toList ++ "\n    </file>".toList

def around (r : Request) (files : List (List Char)) : List Char :=
  "<fixRequest type=\"".toList ++ Request.kind.toList ++ "\">\n  <projectPath>".toList ++
    escape r.projectPath.toList ++ "</projectPath>\n  <errors>\n".toList ++
    r.toBatch.toWire.toText.toList ++ "\n  </errors>\n  <files>\n".toList ++ unlines files ++
    "\n  </files>\n</fixRequest>".toList

def user (r : Request) : Except Failure String := do
  let files ← r.errors.files.mapM fun file => do return fileElement file (← content? r file)
  return String.ofList (around r files)

end Mender.Prompt
