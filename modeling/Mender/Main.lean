import Mender.Run

/-! The command line. What a run is told from outside comes on standard input: the analyzer's report,
and after it, each behind a form feed, the answers of the model. The files that are named there are
read from disk, and those that the run changes are written back. -/

namespace Mender.Console

open Mender.Text

def settingNames : List String :=
  ["DEBUG", "PHPSTAN_BINARY", "MODEL_PROVIDER", "MODEL_NAME"] ++
    Provider.all.flatMap fun p => p.keySetting :: p.addressSetting?.toList

structure Told where
  report : List Char
  answers : List (List Char)

namespace Told

def ofText (s : List Char) : Told :=
  match splitWhere (· == '\x0c') s with
  | report :: answers => ⟨report, answers⟩
  | [] => ⟨[], []⟩

/-- A blank report is that of a clean project. There is no second one. -/
def exits (told : Told) : List Exit :=
  let status := if trim told.report = [] then 0 else 1
  [⟨some status, some (String.ofList told.report), none, none⟩,
    ⟨none, none, none, some "there is no further report"⟩]

def replies (told : Told) : List (Except Failure String) :=
  told.answers.map (fun s => .ok (String.ofList s)) ++
    [.error (.reported "there is no further answer")]

def files (told : Told) : List String :=
  (Report.diagnostics told.report).map (·.file) ++
    told.answers.flatMap fun s => (Answer.fixes s).map (·.file)

end Told

/-- The places that are taken to be there: the project, its analyzer, and where figures are put. -/
def furnish (c : CommandLine.Config) (directory : Path) : Tree :=
  let place (text : String) : Path := Path.resolve directory text.toList
  let project := place c.projectPath
  let binary := (c.binary.map place).getD (project ++ Analyzer.usualPlace)
  let t := (Tree.empty.set project .directory).set binary (.file ⟨[], true, true⟩)
  match c.statsFile with
  | some file => t.set (place file).dropLast .directory
  | none => t

def places (c : CommandLine.Config) (directory : Path) (told : Told) : List Path :=
  let project := Path.resolve directory c.projectPath.toList
  let stats := c.statsFile.toList.map fun file => Path.resolve directory file.toList
  (Prompt.guidelinesFile :: told.files).map (fun file => Path.resolve project file.toList) ++ stats

def shown : Piece → String
  | .text s => s
  | .failure f => f.message
  | .value v => v.toText

def display : Event → IO Unit
  | .console channel pieces _ =>
    let line := " ".intercalate (pieces.map shown)
    match channel with
    | .log => IO.println line
    | .warn | .error => IO.eprintln line
  | _ => pure ()

def readInput : IO (List Char) := do
  let input ← IO.getStdin
  let mut bytes := ByteArray.empty
  repeat
    let more ← input.read 65536
    if more.isEmpty then break
    bytes := bytes ++ more
  return decode bytes.toList

def readEnvironment : IO (List (String × String)) := do
  let pairs ← settingNames.mapM fun name => do return (← IO.getEnv name).map (name, ·)
  return pairs.filterMap id

def load (t : Tree) (p : Path) : IO Tree := do
  match ← (IO.FS.readBinFile p.toText).toBaseIO with
  | .ok bytes => return t.set p (.file ⟨bytes.toList, true, true⟩)
  | .error _ => return t

/-- Writes the files that one tree has otherwise than the other. -/
def save (before after : Tree) : IO Unit :=
  (after.files.filter fun (p, f) => before.node? p != some (.file f)).forM fun (p, f) =>
    IO.FS.writeBinFile p.toText ⟨f.bytes.toArray⟩

/-- The tree and the scripts for these arguments; none are needed if they cannot be read. -/
def prepare (environment : List (String × String)) (directory : Path) (args : List String) :
    IO (Tree × Told) := do
  match CommandLine.parse environment directory args with
  | .error _ => return (.empty, ⟨[], []⟩)
  | .ok c =>
    let told := Told.ofText (← readInput)
    return (← (places c directory told).foldlM load (furnish c directory), told)

end Mender.Console

open Mender Mender.Console in
def main (args : List String) : IO UInt32 := do
  let environment ← readEnvironment
  let directory := Path.resolve [] ((← IO.getEnv "PWD").getD "/").toList
  let (tree, told) ← prepare environment directory args
  let w : World :=
    { tree, directory, environment
      debug := false
      exits := ⟨⟨none, none, none, none⟩, told.exits⟩
      replies := ⟨.ok "", told.replies⟩
      cache := .empty
      trace := [] }
  let (code, after) := (Run.start args).run w
  after.trace.forM display
  save tree after.tree
  return code.toUInt32
