import Mender.World

/-! The analyzer, a program that is launched in the project's directory. An exit code of zero says that
nothing is wrong; with any other one, its output tells what is. -/

namespace Mender

structure Analyzer where
  directory : Path
  binary : String
  deriving DecidableEq

structure Analysis where
  output : String
  exitCode : Number
  deriving DecidableEq

namespace Analyzer

/-- Where a project keeps the analyzer's program. -/
def usualPlace : Path := ["vendor".toList, "bin".toList, "phpstan".toList]

/-- The analyzer of a project, which has to be a directory. -/
def ofProject (projectPath : String) (binary? : Option String) (w : World) :
    Except Failure Analyzer :=
  let directory := w.resolve projectPath
  if w.tree.isDirectory directory then
    .ok ⟨directory, binary?.getD (Path.toText (directory ++ usualPlace))⟩
  else .error (.projectMissing directory.toText)

def arguments (o : AnalysisOptions) : List String :=
  ["analyse"] ++ (if o.verbose = some true then ["-v"] else []) ++
    (match o.level with
      | some level => ["--level", level.toText]
      | none => []) ++
    (match o.configPath.filter (· != "") with
      | some path => ["--configuration", path]
      | none => []) ++
    o.paths.getD []

def isInstalled (a : Analyzer) (w : World) : Bool :=
  (w.tree.locate w.directory a.binary.toList).isSome

/-- How much of the output is taken: 64 MiB. -/
def outputLimit : Nat := 64 * 1024 * 1024

def launch (a : Analyzer) (arguments : List String) (outputLimit : Option Nat) : Launch :=
  ⟨a.binary, arguments, a.directory.toText, outputLimit⟩

/-- Whether the program is there and tells its version. -/
def check (a : Analyzer) : Act Bool := do
  if a.isInstalled (← get) then
    let exit ← World.launch (a.launch ["--version"] none)
    return exit.fault.isNone && exit.status == some 0
  else return false

/-- What a launch says about the project. A program that was ended from outside found it not clean. -/
def analysisOf (exit : Exit) : Analysis :=
  ⟨exit.stdout.getD "" ++ exit.stderr.getD "", exit.status.getD 1⟩

def run (a : Analyzer) (options? : Option AnalysisOptions) : Act (Except Failure Analysis) := do
  if a.isInstalled (← get) then
    let args := arguments (options?.getD ⟨none, none, none, none⟩)
    World.sayDebug .log ("🔎 Running " ++ a.binary ++ " " ++ " ".intercalate args)
    let exit ← World.launch (a.launch args (some outputLimit))
    match exit.fault with
    | some message => return .error (.unavailable a.binary (.launchFailed message))
    | none => return .ok (analysisOf exit)
  else return .error (.unavailable a.binary .notInstalled)

end Analyzer
end Mender
