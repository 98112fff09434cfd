import Mender.World

/-! Applying fixes to a tree, one after the other. A fix that fails leaves the tree as it was and does
not keep the next ones from being tried. -/

namespace Mender

open Mender.Text

inductive Obstacle where
  | outside
  | notFound
  | outOfRange (line : Number) (lines : Nat)
  | file (path : String) (fault : FileFault)
  deriving DecidableEq

namespace Obstacle

def message : Obstacle → String
  | .outside => "path outside the project"
  | .notFound => "file not found"
  | .outOfRange line lines =>
    "line " ++ line.toText ++ " is out of range (file has " ++ toString lines ++ " lines)"
  | .file path fault => fault.message path

end Obstacle

namespace Fix

/-- The text with one of its lines, counted from one, replaced. -/
def replaceLine (s : List Char) (line : Number) (fixed : List Char) : Option (List Char) :=
  match line.toNat? with
  | some (i + 1) => if i < (lines s).length then some (unlines ((lines s).set i fixed)) else none
  | _ => none

def target (root : Path) (f : Fix) : Path := Path.resolve root f.file.toList

def applyTo (root : Path) (f : Fix) (t : Tree) : Except Obstacle Tree := do
  let p := f.target root
  let blame : FileFault → Obstacle := .file p.toText
  if !Path.contains root p then throw .outside
  if !t.exists? p then throw .notFound
  let s ← (t.readText p).mapError blame
  match replaceLine s f.line f.fixed.toList with
  | some s => (t.writeText p s).mapError blame
  | none => throw (.outOfRange f.line (lines s).length)

def attempt (root : Path) (t : Tree) (f : Fix) : Tree :=
  match f.applyTo root t with
  | .ok t => t
  | .error _ => t

def outcomes (root : Path) : Tree → List Fix → List (Fix × Option Obstacle)
  | _, [] => []
  | t, f :: fs =>
    match f.applyTo root t with
    | .ok t => (f, none) :: outcomes root t fs
    | .error obstacle => (f, some obstacle) :: outcomes root t fs

def failures (root : Path) (t : Tree) (fs : List Fix) : List (Fix × Obstacle) :=
  (outcomes root t fs).filterMap fun (f, obstacle?) => obstacle?.map (f, ·)

def applyAll (root : Path) (t : Tree) (fs : List Fix) : Tree := fs.foldl (attempt root) t

def announce (outcome : Fix × Option Obstacle) : Act Unit :=
  let (f, obstacle?) := outcome
  match obstacle? with
  | some obstacle =>
    World.say .error ("❌ Could not fix " ++ f.file ++ ":" ++ f.line.toText ++ ": " ++ obstacle.message)
  | none => World.sayDebug .log ("✏️ Fixed " ++ f.file ++ " line " ++ f.line.toText)

end Fix

/-- Whoever applies fixes under a root, and what failed the last time. -/
structure Applicator where
  root : Path
  lastFailures : List (Fix × Obstacle)

namespace Applicator

def tryFix (a : Applicator) (f : Fix) : Act Applicator := do
  match f.applyTo a.root (← get).tree with
  | .ok t =>
    modify fun w => { w with tree := t }
    Fix.announce (f, none)
    return a
  | .error obstacle =>
    Fix.announce (f, some obstacle)
    return { a with lastFailures := a.lastFailures ++ [(f, obstacle)] }

/-- Tries every fix, and answers whether none failed. What failed before is forgotten. -/
def apply (a : Applicator) (fs : List Fix) : Act (Bool × Applicator) := do
  let a ← fs.foldlM tryFix { a with lastFailures := [] }
  return (a.lastFailures.isEmpty, a)

end Applicator

/-- Applies fixes under `root`, and answers the ones that failed. -/
def Fix.apply (root : Path) (fs : List Fix) : Act (List (Fix × Obstacle)) := do
  let (_, a) ← (Applicator.mk root []).apply fs
  return a.lastFailures

end Mender
