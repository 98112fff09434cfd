import Mender.CommandLine
import Mender.Fix.Apply
import Mender.Report.Section
import Mender.Session.Loop

/-! A whole run in a world: read the command line, then either show what a session would start with,
or work through one and tell how it went. The answer is the exit code. -/

namespace Mender

open CommandLine

namespace World

def content? (root : Path) (file : String) : Act (Option (String × String)) := do
  let w ← get
  let p := Path.resolve root file.toList
  if w.tree.isFile p then
    match w.readFile p p.toText with
    | .ok s => return some (file, String.ofList s)
    | .error f =>
      say .warn ("Error reading file " ++ file ++ ": Error: " ++ f.message)
      return none
  else
    sayDebug .log ("⚠️ " ++ file ++ " is not a file, sending the batch without it")
    return none

def contents (root : Path) (files : List String) : Act (List (String × String)) := do
  let pairs ← files.mapM (content? root)
  return Request.contentsOf (pairs.filterMap id)

def applyFixes (root : Path) (fixes : List Fix) : Act (Except Failure Bool) := do
  return .ok (← Fix.apply root fixes).isEmpty

end World

def parseReport (output : String) : List Diagnostic := Report.diagnostics output.toList

def Crew.ofWorld (analyzer : Analyzer) (oracle : Oracle) (root : Path) : Crew World where
  analyze := analyzer.run
  parse output := pure (parseReport output)
  contents := World.contents root
  consult := oracle.consult
  apply := World.applyFixes root
  pause := World.sleep
  say := World.say

namespace CommandLine.Config

def settings (c : Config) : SessionSettings :=
  { projectPath := c.projectPath
    maxErrorsPerBatch := c.maxErrorsPerBatch
    maxIterations := c.maxIterations
    batchDelay := some c.batchDelay
    analysis := some ⟨c.paths, c.level, c.configPath, some c.verbose⟩ }

end CommandLine.Config

namespace Run

def refuse (misuse : Misuse) : Act Unit := do
  World.say .error misuse.message
  World.say .error usage
  World.record (.exit 1)

def configure (args : List String) : Act (Option Config) := do
  let w ← get
  match parse w.environment w.directory args with
  | .ok c => return some c
  | .error misuse =>
    refuse misuse
    return none

def prepare (c : Config) (w : World) : Except Failure (Session × Crew World) := do
  let analyzer ← Analyzer.ofProject c.projectPath c.binary w
  let session ← Session.ofSettings c.settings w
  return (session, .ofWorld analyzer .usual session.project)

def dryRun (session : Session) (crew : Crew World) : Act (Except Failure Nat) := do
  World.say .log "Dry run: analyzing without applying fixes..."
  match ← session.analyze crew with
  | .error f => return .error f
  | .ok snapshot =>
    if snapshot.diagnostics.isEmpty then
      World.say .log "✅ No PHPStan errors found"
      return .ok 0
    else
      let total := snapshot.diagnostics.length
      World.say .log ("Found " ++ toString total ++ " errors in " ++
        toString (Batch.pagesFor total session.pageSize) ++ " batches")
      World.say .log "\nFirst batch:"
      World.say .log (Batch.page snapshot.diagnostics session.pageSize 0).preview
      return .ok 1

def writeStats (file : String) (stats : Stats) : Act (Except Failure Unit) := do
  let w ← get
  let p := w.resolve file
  match w.tree.writeText p stats.toJson.toText.toList with
  | .error fault => return .error (.file p.toText fault)
  | .ok tree =>
    set { w with tree }
    World.say .log ("Statistics written to " ++ p.toText)
    return .ok ()

def fullRun (c : Config) (session : Session) (crew : Crew World) : Act (Except Failure Nat) := do
  World.say .log ("🔧 Fixing PHPStan errors in " ++ c.projectPath)
  match ← session.run crew .zero with
  | .error f => return .error f
  | .ok report =>
    World.say .log ("\n" ++ (if report.success then "✅" else "⚠️") ++ " " ++ report.reason)
    World.say .log report.stats.toText
    let code := if report.success then 0 else 1
    match c.statsFile.filter (· != "") with
    | none => return .ok code
    | some file => return (← writeStats file report.stats).map fun _ => code

def perform (c : Config) : Act (Except Failure Nat) := do
  modify fun w => { w with debug := c.debug }
  World.printDebug .log [.text "Configuration:", .value c.toJson]
  match prepare c (← get) with
  | .error f => return .error f
  | .ok (session, crew) => if c.dryRun then dryRun session crew else fullRun c session crew

def start (args : List String) : Act Nat := do
  match ← configure args with
  | none => return 1
  | some c =>
    match ← perform c with
    | .ok code => return code
    | .error f =>
      World.print .error [.text "Fatal error:", .failure f]
      return 1

end Run
end Mender
