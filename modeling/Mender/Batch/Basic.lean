import Mender.Diagnostic
import Mender.Failure

/-! Diagnostics in pages, and the groups of a page by file. The pages are the consecutive chunks of
the list; in a page, files come in the order in which they are first seen, and so do the diagnostics
of one file. -/

namespace Mender

/-- Diagnostics by file, no file twice. -/
abbrev Groups := List (String × List Diagnostic)

namespace Groups

/-- The groups with one more diagnostic, which goes to the end of its file's group. -/
def add (d : Diagnostic) : Groups → Groups
  | [] => [(d.file, [d])]
  | g :: gs => if g.1 = d.file then (g.1, g.2 ++ [d]) :: gs else g :: add d gs

def ofList (ds : List Diagnostic) : Groups := ds.foldl (fun gs d => add d gs) []

def toList (gs : Groups) : List Diagnostic := gs.flatMap (·.2)

def files (gs : Groups) : List String := gs.map (·.1)

end Groups

/-- Where a batch stands among the others. -/
structure BatchInfo where
  index : Number
  totalCount : Number
  size : Number
  hasMore : Bool
  deriving DecidableEq

structure Batch where
  info : BatchInfo
  groups : Groups
  deriving DecidableEq

namespace Batch

/-- The batch that holds page `index` of the diagnostics, `size` of them to a page. A page past the
end is empty. -/
def page (ds : List Diagnostic) (size index : Nat) : Batch :=
  let items := (ds.drop (index * size)).take size
  { info :=
      { index := .ofNat index
        totalCount := .ofNat ds.length
        size := .ofNat items.length
        hasMore := (index + 1) * size < ds.length }
    groups := .ofList items }

def pagesFor (total size : Nat) : Nat := (total + size - 1) / size

def pages (ds : List Diagnostic) (size : Nat) : List Batch :=
  (List.range (pagesFor ds.length size)).map (page ds size)

def diagnostics (b : Batch) : List Diagnostic := b.groups.toList

def pageSize? (size : Number) : Except Failure Nat :=
  match size.toNat? with
  | some (n + 1) => .ok (n + 1)
  | _ => .error (.pageSize size)

def pageIndex? (index : Number) : Except Failure Nat :=
  match index.toNat? with
  | some n => .ok n
  | none => .error (.pageIndex index)

/-- How many pages it takes, for any total: the quotient, rounded up. -/
def pageCount (total size : Number) : Except Failure Number := do
  let _ ← pageSize? size
  return (total / size).ceil

def page? (ds : List Diagnostic) (size index : Number) : Except Failure Batch := do
  let k ← pageSize? size
  let i ← pageIndex? index
  return page ds k i

def pages? (ds : List Diagnostic) (size : Number) : Except Failure (List Batch) := do
  let k ← pageSize? size
  return pages ds k

/-- A batch as a dry run shows it: each file, and under it its lines and messages. -/
def preview (b : Batch) : String :=
  "\n".intercalate (b.groups.flatMap fun (file, ds) =>
    ("File: " ++ file) :: ds.map fun d => "  Line " ++ d.line.toText ++ ": " ++ d.message)

end Batch
end Mender
