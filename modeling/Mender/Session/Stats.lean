import Mender.Batch.Basic
import Mender.Json.Basic

/-! The figures of a session. A batch always counts as processed; its fixes and the categories of its
diagnostics count when fixes of it were applied. -/

namespace Mender

structure Stats where
  iterations : Number
  fixesApplied : Number
  batchesProcessed : Number
  /-- In the order in which the categories were first counted. -/
  counts : List (Category × Number)
  deriving DecidableEq

namespace Stats

def zero : Stats := ⟨0, 0, 0, []⟩

def count (c : Category) : List (Category × Number) → List (Category × Number)
  | [] => [(c, 1)]
  | e :: es => if e.1 = c then (c, e.2 + 1) :: es else e :: count c es

/-- The figures after a batch with these diagnostics, of which so many fixes were applied. -/
def record (ds : List Diagnostic) (applied : Number) (s : Stats) : Stats :=
  let s := { s with batchesProcessed := s.batchesProcessed + 1 }
  if applied = 0 then s
  else
    { s with
      fixesApplied := s.fixesApplied + applied
      counts := ds.foldl (fun counts d => count d.category counts) s.counts }

def lines (s : Stats) : List String :=
  ["Iterations: " ++ s.iterations.toText, "Fixes applied: " ++ s.fixesApplied.toText,
      "Batches processed: " ++ s.batchesProcessed.toText] ++
    if s.counts.isEmpty then []
    else "By category:" :: s.counts.map fun (c, n) => "  " ++ c.name ++ ": " ++ n.toText

def toText (s : Stats) : String := "\n".intercalate s.lines

def toJson (s : Stats) : Json :=
  .object
    [("iterations", .number s.iterations), ("totalFixesApplied", .number s.fixesApplied),
      ("totalBatchesProcessed", .number s.batchesProcessed),
      ("countsByCategory", .object (s.counts.map fun (c, n) => (c.name, .number n)))]

end Stats
end Mender
