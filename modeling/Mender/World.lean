import Mender.Batch.Wire
import Mender.Failure
import Mender.Fix.Basic

/-! The world as a run sees it: the files, the settings of its environment, what launched programs
and the model are going to answer, and the record of everything that was done to the outside. -/

namespace Mender

/-- Answers that are still to come, one for each request; the last one answers for ever after. -/
structure Script (α : Type) where
  fallback : α
  items : List α

namespace Script

variable {α : Type}

def take (s : Script α) : α × Script α :=
  match s.items with
  | [] => (s.fallback, s)
  | [a] => (a, s)
  | a :: b :: rest => (a, { s with items := b :: rest })

end Script

inductive Channel where
  | log
  | warn
  | error
  deriving DecidableEq

inductive Piece where
  | text (s : String)
  | failure (f : Failure)
  | value (v : Json)

structure Launch where
  command : String
  arguments : List String
  directory : String
  /-- How much output is taken, if that is bounded. -/
  outputLimit : Option Nat
  deriving DecidableEq

/-- What became of a launched program. No status means that it was ended from outside. -/
structure Exit where
  status : Option Number
  stdout : Option String
  stderr : Option String
  /-- Why it could not be launched. -/
  fault : Option String
  deriving DecidableEq

inductive Maker where
  | openai
  | anthropic
  | google
  deriving DecidableEq

/-- A model, as it was constructed. The `id` counts the models that were. -/
structure Model where
  id : Nat
  maker : Maker
  apiKey : String
  baseURL : Option String
  name : String
  deriving DecidableEq

structure Question where
  model : Model
  system : String
  prompt : String
  maxTokens : Number
  deriving DecidableEq

/-- Which errors to look for, and where; what is not said is left to the analyzer. -/
structure AnalysisOptions where
  paths : Option (List String)
  level : Option Number
  configPath : Option String
  verbose : Option Bool
  deriving DecidableEq

inductive Call where
  | analyze (options : Option AnalysisOptions)
  | consult (request : Request)
  | apply (fixes : List Fix)
  | pause (duration : Number)

inductive Event where
  /-- A line on the console; `forDebugging` if it would not be there otherwise. -/
  | console (channel : Channel) (pieces : List Piece) (forDebugging : Bool)
  | exit (code : Number)
  | launch (l : Launch)
  | sleep (duration : Number)
  | ask (q : Question)
  | call (c : Call)
  /-- An operation that may be repeated was tried. -/
  | attempt

namespace Event

def isForDebugging : Event → Bool
  | .console _ _ forDebugging => forDebugging
  | _ => false

end Event

/-- The models made so far, by what a request for them is told apart by. -/
structure ModelCache where
  made : Nat
  models : List (String × Model)

namespace ModelCache

def empty : ModelCache := ⟨0, []⟩

end ModelCache

structure World where
  tree : Tree
  directory : Path
  environment : List (String × String)
  debug : Bool
  exits : Script Exit
  replies : Script (Except Failure String)
  cache : ModelCache
  /-- What was done so far, the earliest first. -/
  trace : List Event

/-- A step that may change the world. -/
abbrev Act := StateM World

namespace World

def record (e : Event) : Act Unit := modify fun w => { w with trace := w.trace ++ [e] }

def print (channel : Channel) (pieces : List Piece) : Act Unit := record (.console channel pieces false)

def say (channel : Channel) (s : String) : Act Unit := print channel [.text s]

def printDebug (channel : Channel) (pieces : List Piece) : Act Unit := do
  if (← get).debug then record (.console channel pieces true)

def sayDebug (channel : Channel) (s : String) : Act Unit := printDebug channel [.text s]

def showDebug (label : String) (value : Json) : Act Unit := do
  if (← get).debug then sayDebug .log (label ++ ":\n" ++ value.toText)

def setting? (name : String) (w : World) : Option String := w.environment.lookup name

def sleep (duration : Number) : Act Unit := record (.sleep duration)

def launch (l : Launch) : Act Exit := do
  record (.launch l)
  modifyGet fun w =>
    let (exit, exits) := w.exits.take
    (exit, { w with exits })

def ask (q : Question) : Act (Except Failure String) := do
  record (.ask q)
  modifyGet fun w =>
    let (reply, replies) := w.replies.take
    (reply, { w with replies })

def resolve (text : String) (w : World) : Path := Path.resolve w.directory text.toList

/-- The text of a file, or why it cannot be read; `shown` names it. -/
def readFile (p : Path) (shown : String) (w : World) : Except Failure (List Char) :=
  (w.tree.readText p).mapError (.file shown)

end World
end Mender
