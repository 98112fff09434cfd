import Mender.World

/-! The command line: options in any order around one project path. An option given twice counts the
last time. -/

namespace Mender.CommandLine

inductive Flag where
  | paths
  | level
  | config
  | verbose
  | maxErrors
  | maxIterations
  | dryRun
  | binary
  | batchDelay
  | statsFile
  | debug
  deriving DecidableEq

namespace Flag

/-- How an option is written, in short too where it can be. -/
def spellings : Flag → List String
  | .paths => ["--paths", "-p"]
  | .level => ["--level", "-l"]
  | .config => ["--config", "-c"]
  | .verbose => ["--verbose", "-v"]
  | .maxErrors => ["--max-errors", "-m"]
  | .maxIterations => ["--max-iterations", "-i"]
  | .dryRun => ["--dry-run"]
  | .binary => ["--phpstan-binary"]
  | .batchDelay => ["--batch-delay"]
  | .statsFile => ["--stats-file"]
  | .debug => ["--debug"]

def all : List Flag :=
  [.paths, .level, .config, .verbose, .maxErrors, .maxIterations, .dryRun, .binary, .batchDelay,
    .statsFile, .debug]

def ofText? (s : String) : Option Flag := all.find? fun flag => flag.spellings.contains s

end Flag

inductive Misuse where
  | noInteger (flag : String) (least : Nat) (given : String)
  | noValue (flag : String)
  | noPaths (flag : String)
  | unknownOption (s : String)
  | secondPath (s : String)
  | noProject
  deriving DecidableEq

namespace Misuse

def message : Misuse → String
  | .noInteger flag least given =>
    flag ++ " expects an integer >= " ++ toString least ++ ", got \"" ++ given ++ "\""
  | .noValue flag => flag ++ " expects a value"
  | .noPaths flag => flag ++ " expects at least one path"
  | .unknownOption s => "Unknown option: " ++ s
  | .secondPath s => "Unexpected argument: " ++ s
  | .noProject => "A project path is required"

end Misuse

def usage : String :=
  "Usage: phpstan-autofix <project_path> [--paths <path>...] [--level <0-9>] " ++
  "[--config <phpstan.neon>] [--verbose] [--max-errors <n>] [--max-iterations <n>] " ++
  "[--dry-run] [--phpstan-binary <path>] [--batch-delay <ms>] [--stats-file <path>] [--debug]"

structure Config where
  /-- As it was given; empty until one is. -/
  projectPath : String
  paths : Option (List String)
  level : Option Number
  configPath : Option String
  verbose : Bool
  maxErrorsPerBatch : Number
  maxIterations : Number
  batchDelay : Number
  dryRun : Bool
  debug : Bool
  binary : Option String
  statsFile : Option String
  deriving DecidableEq

namespace Config

def initial (environment : List (String × String)) : Config :=
  { projectPath := ""
    paths := none
    level := none
    configPath := none
    verbose := false
    maxErrorsPerBatch := .ofNat 3
    maxIterations := .ofNat 10
    batchDelay := .ofNat 1000
    dryRun := false
    debug := environment.lookup "DEBUG" == some "true"
    binary := (environment.lookup "PHPSTAN_BINARY").filter (· != "")
    statsFile := none }

def toJson (c : Config) : Json :=
  .object
    [("projectPath", .text c.projectPath), ("verbose", .bool c.verbose),
      ("maxErrorsPerBatch", .number c.maxErrorsPerBatch), ("maxIterations", .number c.maxIterations),
      ("batchDelayMs", .number c.batchDelay), ("dryRun", .bool c.dryRun), ("debug", .bool c.debug),
      ("phpstanBinary", .ofOption .text c.binary),
      ("paths", .ofOption (fun paths => .list (paths.map .text)) c.paths),
      ("level", .ofOption .number c.level), ("configPath", .ofOption .text c.configPath),
      ("statsFile", .ofOption .text c.statsFile)]

end Config

/-- Whether an argument is written like an option. -/
def isDashed (s : String) : Bool := s.toList.head? == some '-'

/-- A numeral for a whole number that is not below `least`. -/
def readInteger (flag : String) (least : Nat) (value? : Option String) : Except Misuse Number :=
  let x := (value?.map fun s => Number.read s.toList).getD .nan
  if x.isInteger && Number.le (.ofNat least) x then .ok x
  else .error (.noInteger flag least (value?.getD ""))

/-- A value that is not written like an option. -/
def readValue (flag : String) (value? : Option String) : Except Misuse String :=
  match value? with
  | some value => if isDashed value then .error (.noValue flag) else .ok value
  | none => .error (.noValue flag)

/-- The arguments after an option's values: one value for most that have any, and for `paths` all up
to the next option. -/
def Flag.after (flag : Flag) (rest : List String) : List String :=
  match flag with
  | .paths => rest.dropWhile (!isDashed ·)
  | .verbose | .dryRun | .debug => rest
  | _ => rest.tail

/-- The configuration with an option set, which is written as `arg` and followed by `rest`. -/
def Config.set (c : Config) (flag : Flag) (arg : String) (rest : List String) :
    Except Misuse Config := do
  match flag with
  | .paths =>
    let paths := rest.takeWhile (!isDashed ·)
    if paths.isEmpty then throw (.noPaths arg)
    return { c with paths := some paths }
  | .level => return { c with level := some (← readInteger arg 0 rest.head?) }
  | .config => return { c with configPath := some (← readValue arg rest.head?) }
  | .verbose => return { c with verbose := true }
  | .maxErrors => return { c with maxErrorsPerBatch := ← readInteger arg 1 rest.head? }
  | .maxIterations => return { c with maxIterations := ← readInteger arg 1 rest.head? }
  | .dryRun => return { c with dryRun := true }
  | .binary => return { c with binary := some (← readValue arg rest.head?) }
  | .batchDelay => return { c with batchDelay := ← readInteger arg 0 rest.head? }
  | .statsFile => return { c with statsFile := some (← readValue arg rest.head?) }
  | .debug => return { c with debug := true }

/-- The configuration with its project, if `arg` can be one and there is none yet. -/
def Config.setProject (c : Config) (arg : String) : Except Misuse Config :=
  if isDashed arg then .error (.unknownOption arg)
  else if c.projectPath ≠ "" then .error (.secondPath arg)
  else .ok { c with projectPath := arg }

theorem Flag.length_after_le (flag : Flag) (rest : List String) :
    (flag.after rest).length ≤ rest.length := by
  cases flag <;> simp [Flag.after, (List.dropWhile_sublist _).length_le]

def Config.take (c : Config) : List String → Except Misuse Config
  | [] => .ok c
  | arg :: rest =>
    match Flag.ofText? arg with
    | some flag => (c.set flag arg rest).bind fun c => c.take (flag.after rest)
    | none => (c.setProject arg).bind fun c => c.take rest
termination_by args => args.length
decreasing_by
  · exact Nat.lt_succ_of_le (flag.length_after_le rest)
  · exact Nat.lt_succ_self _

/-- What a command line asks for, the project's path resolved against the current directory. -/
def parse (environment : List (String × String)) (directory : Path) (args : List String) :
    Except Misuse Config := do
  let c ← (Config.initial environment).take args
  if c.projectPath = "" then throw .noProject
  return { c with projectPath := (Path.resolve directory c.projectPath.toList).toText }

end Mender.CommandLine
