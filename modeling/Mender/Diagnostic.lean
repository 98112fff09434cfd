import Mender.Number.Shortest
import Mender.Text.Case
import Mender.Text.Split

/-! What an analyzer has to say about a line of a file, and the category it falls into. The message
decides first; then the rule's identifier is searched for one word after the other. -/

namespace Mender

open Mender.Text

inductive Category where
  | typeError
  | undefinedSymbol
  | missingType
  | notFound
  | argumentError
  | other
  deriving DecidableEq

namespace Category

def name : Category → String
  | .typeError => "type_error"
  | .undefinedSymbol => "undefined_symbol"
  | .missingType => "missing_type"
  | .notFound => "not_found"
  | .argumentError => "argument_error"
  | .other => "other"

def all : List Category :=
  [.typeError, .undefinedSymbol, .missingType, .notFound, .argumentError, .other]

def ofName? (name : String) : Option Category := all.find? fun c => c.name == name

theorem ofName?_name (c : Category) : ofName? c.name = some c := by cases c <;> decide

def typePhrases : List String :=
  ["type has no value type specified", "has no typehint specified", "has no type specified"]

/-- Words of rule identifiers, in the order in which they are looked for. -/
def codeWords : List (List String × Category) :=
  [(["undefined"], .undefinedSymbol), (["missing"], .missingType),
    (["not.found", "notfound"], .notFound), (["arguments"], .argumentError), (["type"], .typeError)]

/-- The category of a message under a rule. Neither is searched with regard to case. -/
def classify (message code : List Char) : Category :=
  let mentions (s : List Char) (word : String) : Bool := occursIn word.toList s
  if typePhrases.any (mentions (toLower message)) then .typeError
  else
    match codeWords.find? fun (words, _) => words.any (mentions (toLower code)) with
    | some (_, category) => category
    | none => .other

end Category

/-- One finding. The file is named as the analyzer names it, and lines count from one. -/
structure Diagnostic where
  message : String
  file : String
  line : Number
  category : Category
  code : Option String
  suggestion : Option String
  deriving DecidableEq

end Mender
