import Mender.Analyzer
import Mender.Oracle
import Mender.Session.Stats

/-! A session: analyze, send the findings to the oracle page by page, apply what it proposes, and start
over, until the analyzer finds nothing, nothing can be applied any more, or the budget is spent. What
the session calls is given to it, so it may be anything that acts on a state. Iterations are counted
exactly. A count of double precision would stand still at 2^53, so it is assumed that no session comes to
so many. -/

namespace Mender

/-- What a session works with, acting on a state. -/
structure Crew (σ : Type) where
  analyze : Option AnalysisOptions → StateM σ (Except Failure Analysis)
  parse : String → StateM σ (List Diagnostic)
  /-- The contents of those files that can be read. -/
  contents : List String → StateM σ (List (String × String))
  consult : Request → StateM σ (Except Failure Response)
  /-- Whether all fixes were applied. -/
  apply : List Fix → StateM σ (Except Failure Bool)
  pause : Number → StateM σ Unit
  say : Channel → String → StateM σ Unit

namespace Crew

variable {σ : Type}

/-- A crew whose calls are noted before they are made. -/
def noting (note : Call → StateM σ Unit) (crew : Crew σ) : Crew σ :=
  { crew with
    analyze := fun options => do note (.analyze options); crew.analyze options
    consult := fun request => do note (.consult request); crew.consult request
    apply := fun fixes => do note (.apply fixes); crew.apply fixes
    pause := fun duration => do note (.pause duration); crew.pause duration }

end Crew

/-- What a session is asked to do, unchecked. -/
structure SessionSettings where
  projectPath : String
  maxErrorsPerBatch : Number
  maxIterations : Number
  batchDelay : Option Number
  analysis : Option AnalysisOptions
  deriving DecidableEq

/-- A session with its limits checked and its project resolved. -/
structure Session where
  project : Path
  pageSize : Nat
  maxIterations : Nat
  batchDelay : Option Number
  analysis : Option AnalysisOptions
  pageSize_pos : 0 < pageSize
  maxIterations_pos : 0 < maxIterations

inductive Ending where
  | clean
  | unparsed (exitCode : Number)
  | nothingApplied (iteration : Nat)
  | budgetSpent (maxIterations : Nat)
  | analyzerUnavailable (message : String)
  | applyFailed (batch iteration : Nat)
  deriving DecidableEq

inductive RunStatus where
  | converged
  | stuck
  | exhausted
  | aborted
  deriving DecidableEq

namespace RunStatus

def name : RunStatus → String
  | .converged => "converged"
  | .stuck => "stuck"
  | .exhausted => "exhausted"
  | .aborted => "aborted"

end RunStatus

namespace Ending

def status : Ending → RunStatus
  | .clean => .converged
  | .unparsed _ | .nothingApplied _ => .stuck
  | .budgetSpent _ => .exhausted
  | .analyzerUnavailable _ | .applyFailed .. => .aborted

def reason : Ending → String
  | .clean => "PHPStan reports no errors"
  | .unparsed exitCode =>
    "PHPStan exited with code " ++ exitCode.toText ++ " but reported no parseable errors"
  | .nothingApplied iteration => "No fixes applied in iteration " ++ toString iteration
  | .budgetSpent maxIterations =>
    "Reached maximum iterations (" ++ (Number.ofNat maxIterations).toText ++
      ") without fixing all errors"
  | .analyzerUnavailable message => message
  | .applyFailed batch iteration =>
    "Failed to apply fixes for batch " ++ toString batch ++ " of iteration " ++ toString iteration

end Ending

structure RunReport where
  ending : Ending
  stats : Stats
  deriving DecidableEq

namespace RunReport

def status (r : RunReport) : RunStatus := r.ending.status

def reason (r : RunReport) : String := r.ending.reason

def success (r : RunReport) : Bool := r.status == .converged

end RunReport

structure Snapshot where
  exitCode : Number
  diagnostics : List Diagnostic
  deriving DecidableEq

inductive Pass where
  | finished (applied : Nat)
  | failedAt (batch : Nat)
  deriving DecidableEq

namespace Session

/-- The session for these settings, or the first limit that is not a positive whole number. -/
def ofSettings (settings : SessionSettings) (w : World) : Except Failure Session :=
  match settings.maxErrorsPerBatch.toNat?, settings.maxIterations.toNat? with
  | some (size + 1), some (iterations + 1) =>
    .ok
      { project := w.resolve settings.projectPath
        pageSize := size + 1
        maxIterations := iterations + 1
        batchDelay := settings.batchDelay
        analysis := settings.analysis
        pageSize_pos := Nat.succ_pos size
        maxIterations_pos := Nat.succ_pos iterations }
  | some (_ + 1), _ => .error (.limit .maxIterations)
  | _, _ => .error (.limit .maxErrorsPerBatch)

variable {σ : Type}

/-- One analysis. The output of a clean one is not looked at. -/
def analyze (s : Session) (crew : Crew σ) : StateM σ (Except Failure Snapshot) := do
  match ← crew.analyze s.analysis with
  | .error f => return .error f
  | .ok analysis =>
    if analysis.exitCode = 0 then return .ok ⟨analysis.exitCode, []⟩
    else return .ok ⟨analysis.exitCode, ← crew.parse analysis.output⟩

/-- What the oracle answers; a failure of its own is an answer without fixes. -/
def responseTo (crew : Crew σ) (request : Request) : StateM σ Response := do
  match ← crew.consult request with
  | .ok response => return response
  | .error f => return .failed f.message

/-- Sends one batch and applies the answer. The number of fixes, or `none` if applying failed. -/
def processBatch (s : Session) (crew : Crew σ) (b : Batch) :
    StateM σ (Except Failure (Option Nat)) := do
  let contents ← crew.contents b.groups.files
  crew.say .log ("Sending batch with " ++ b.info.size.toText ++ " errors to the fix oracle...")
  let response ← responseTo crew (.ofBatch b contents s.project.toText)
  if response.status = .error then crew.say .warn ("⚠️ Fix oracle error: " ++ response.message)
  if response.fixes.isEmpty then
    crew.say .log "⚠️ No fixes suggested for this batch"
    return .ok (some 0)
  else
    crew.say .log ("Applying " ++ toString response.fixes.length ++ " suggested fixes...")
    match ← crew.apply response.fixes with
    | .error f => return .error f
    | .ok true => return .ok (some response.fixes.length)
    | .ok false =>
      crew.say .error "❌ Failed to apply fixes"
      return .ok none

/-- The batches from number `position` on, of `total`, `applied` fixes having been applied. -/
def processBatches (s : Session) (crew : Crew σ) (total : Nat) :
    (position applied : Nat) → Stats → List Batch → StateM σ (Except Failure (Pass × Stats))
  | _, applied, stats, [] => return .ok (.finished applied, stats)
  | position, applied, stats, b :: bs => do
    crew.say .log ("\n--- Processing batch " ++ toString position ++ "/" ++ toString total ++ " ---")
    match ← s.processBatch crew b with
    | .error f => return .error f
    | .ok none => return .ok (.failedAt position, stats)
    | .ok (some n) =>
      if !bs.isEmpty then crew.pause (s.batchDelay.getD 0)
      s.processBatches crew total (position + 1) (applied + n)
        (stats.record b.diagnostics (.ofNat n)) bs

/-- Iteration number `i`, with `left` more after it. -/
def iterate (s : Session) (crew : Crew σ) :
    (i left : Nat) → Stats → StateM σ (Except Failure RunReport)
  | i, left, stats => do
    crew.say .log ("\n=== Iteration " ++ toString i ++ "/" ++ (Number.ofNat s.maxIterations).toText ++
      " ===")
    match ← s.analyze crew with
    | .error (.unavailable binary why) =>
      crew.say .error ("❌ " ++ why.message binary)
      return .ok ⟨.analyzerUnavailable (why.message binary), stats⟩
    | .error f => return .error f
    | .ok snapshot =>
      let stats := { stats with iterations := .ofNat i }
      if snapshot.exitCode = 0 then
        crew.say .log ("\n✅ All PHPStan errors fixed! Total fixed: " ++ stats.fixesApplied.toText)
        return .ok ⟨.clean, stats⟩
      else if snapshot.diagnostics.isEmpty then return .ok ⟨.unparsed snapshot.exitCode, stats⟩
      else
        let batches := Batch.pages snapshot.diagnostics s.pageSize
        crew.say .log ("Found " ++ toString snapshot.diagnostics.length ++ " errors in " ++
          toString batches.length ++ " batches")
        match ← s.processBatches crew batches.length 1 0 stats batches with
        | .error f => return .error f
        | .ok (.failedAt batch, stats) => return .ok ⟨.applyFailed batch i, stats⟩
        | .ok (.finished 0, stats) =>
          crew.say .log ("\n⚠️ No errors fixed in iteration " ++ toString i ++ ". Stopping.")
          return .ok ⟨.nothingApplied i, stats⟩
        | .ok (.finished (n + 1), stats) =>
          crew.say .log ("\nFixed " ++ toString (n + 1) ++ " errors in iteration " ++ toString i)
          crew.say .log ("Total errors fixed so far: " ++ stats.fixesApplied.toText)
          match left with
          | left + 1 => s.iterate crew (i + 1) left stats
          | 0 =>
            let ending := Ending.budgetSpent s.maxIterations
            crew.say .log ("\n⚠️ " ++ ending.reason)
            return .ok ⟨ending, stats⟩
termination_by structural _ left => left

def run (s : Session) (crew : Crew σ) (stats : Stats) : StateM σ (Except Failure RunReport) :=
  s.iterate crew 1 (s.maxIterations - 1) stats

end Session
end Mender
