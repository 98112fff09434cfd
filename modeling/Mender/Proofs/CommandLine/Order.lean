import Mathlib.Data.List.Induction
import Mender.Proofs.CommandLine.Items

/-! The options of a command line stand in any order around the path of the project. Each of them means
what it says: what an option sets is told by the last group that sets it, so groups of different options may
change places. -/

namespace Mender.CommandLine

/-- A command line as it is meant to be written: options around the path of a project, which stands
anywhere but behind a list of paths. -/
structure Command where
  before : List Group
  project : String
  after : List Group
  ne_empty : project ≠ ""
  plain : isDashed project = false
  placed : ∀ g ∈ before.getLast?, g.flag ≠ .paths

/-- The values of the last of these groups that sets an option. -/
def last? (flag : Flag) (gs : List Group) : Option (List String) :=
  (gs.filter (·.flag = flag)).getLast?.map Group.values

def value? (flag : Flag) (gs : List Group) : Option String := (last? flag gs).map (·.headD "")

def occurs (flag : Flag) (gs : List Group) : Bool := gs.any (·.flag = flag)

/-- The same groups, those of each option in the same order. -/
def Reordered (gs gs' : List Group) : Prop :=
  ∀ flag, gs.filter (·.flag = flag) = gs'.filter (·.flag = flag)

namespace Command

variable (l : Command)

def groups : List Group := l.before ++ l.after

def args : List String := l.before.flatMap Group.words ++ l.project :: l.after.flatMap Group.words

def meaning (environment : List (String × String)) (directory : Path) : Config where
  projectPath := (Path.resolve directory l.project.toList).toText
  paths := last? .paths l.groups
  level := (value? .level l.groups).map number
  configPath := value? .config l.groups
  verbose := occurs .verbose l.groups
  maxErrorsPerBatch := ((value? .maxErrors l.groups).map number).getD 3
  maxIterations := ((value? .maxIterations l.groups).map number).getD 10
  batchDelay := ((value? .batchDelay l.groups).map number).getD 1000
  dryRun := occurs .dryRun l.groups
  debug := occurs .debug l.groups || environment.lookup "DEBUG" == some "true"
  binary := (value? .binary l.groups).or ((environment.lookup "PHPSTAN_BINARY").filter (· != ""))
  statsFile := value? .statsFile l.groups

end Command

section Last

variable {α : Type} {flag : Flag} {gs : List Group} {c : Config}

theorem last?_concat (gs : List Group) (g : Group) :
    last? flag (gs ++ [g]) = if g.flag = flag then some g.values else last? flag gs := by
  rw [last?, List.filter_append]
  by_cases h : g.flag = flag
  · simp [h]
  · simp [h, last?]

theorem isSome_last? : (last? flag gs).isSome = occurs flag gs := by
  induction gs using List.reverseRecOn with
  | nil => rfl
  | append_singleton gs g ih =>
    rw [last?_concat, occurs, List.any_append, ← occurs, ← ih]
    by_cases h : g.flag = flag <;> simp [h]

theorem Reordered.last?_eq {gs gs' : List Group} (h : Reordered gs gs') (flag : Flag) :
    last? flag gs = last? flag gs' := by
  rw [last?, h, last?]

theorem Config.giveAll_concat (c : Config) (gs : List Group) (g : Group) :
    c.giveAll (gs ++ [g]) = (c.giveAll gs).give g.flag g.values := by
  rw [giveAll, List.foldl_append]
  rfl

/-- What only one option sets is set by the last group that does. -/
theorem Config.giveAll_field {field : Config → α} {set : List String → α}
    (sets : ∀ c flag' values, field (c.give flag' values) = if flag' = flag then set values else field c)
    (c : Config) (gs : List Group) : field (c.giveAll gs) = ((last? flag gs).map set).getD (field c) := by
  induction gs using List.reverseRecOn with
  | nil => rfl
  | append_singleton gs g ih =>
    rw [giveAll_concat, sets, last?_concat]
    split
    · rfl
    · exact ih

end Last

section Given

variable {α β : Type} (a? : Option α)

theorem getD_map_some (f : α → β) (b? : Option β) : (a?.map fun a => some (f a)).getD b? = (a?.map f).or b? := by
  cases a? <;> rfl

theorem getD_map_true (b : Bool) : (a?.map fun _ => true).getD b = (a?.isSome || b) := by
  cases a? <;> rfl

end Given

namespace Command

variable (l : Command) (environment : List (String × String)) (directory : Path)

theorem of_eq_meaning :
    .of environment directory l.project l.groups = l.meaning environment directory := by
  have field {α : Type} {flag : Flag} {field : Config → α} {set : List String → α}
      (sets : ∀ c flag' values, field (c.give flag' values) = if flag' = flag then set values else field c) :=
    Config.giveAll_field sets (.initial environment) l.groups
  have paths : ((last? .paths l.groups).map some).getD none = last? .paths l.groups := by
    cases last? .paths l.groups <;> rfl
  rw [Config.of, field Config.paths_give, field Config.level_give, field Config.configPath_give,
    field Config.verbose_give, field Config.maxErrorsPerBatch_give, field Config.maxIterations_give,
    field Config.batchDelay_give, field Config.dryRun_give, field Config.debug_give,
    field Config.binary_give, field Config.statsFile_give]
  simp only [meaning, value?, Config.initial, paths, getD_map_some, getD_map_true, isSome_last?,
    Option.map_map, Option.or_none, Bool.or_false]
  rfl

end Command

section Options

theorem written_options (gs : List Group) (items : List Item) :
    written (gs.map .option ++ items) = gs.flatMap Group.words ++ written items := by
  rw [written, List.flatMap_append, List.flatMap_map]
  rfl

theorem groups_options (gs : List Group) : groups (gs.map .option) = gs := by
  rw [groups, List.filterMap_map]
  exact List.filterMap_some

theorem arguments_options (gs : List Group) : arguments (gs.map .option) = [] := by
  rw [arguments, List.filterMap_map]
  exact List.filterMap_eq_nil_iff.2 fun _ _ => rfl

theorem ends_option (g : Group) (items : List Item) : Ends (written (.option g :: items)) := by
  rintro _ ⟨⟩
  exact Flag.isDashed_of_mem_spellings g.spelled

theorem apart_options {gs : List Group} {items : List Item} (apart : Apart items)
    (ends : ∀ g ∈ gs.getLast?, g.flag.kind = .paths → Ends (written items)) :
    Apart (gs.map .option ++ items) := by
  induction gs with
  | nil => exact apart
  | cons g gs ih =>
    cases gs with
    | nil => exact ⟨ends g rfl, apart⟩
    | cons g' gs =>
      refine ⟨fun _ => ends_option g' _, ih ?_⟩
      rwa [List.getLast?_cons_cons] at ends

end Options

namespace Command

variable (l : Command)

def items : List Item := l.before.map .option ++ .argument l.project l.plain :: l.after.map .option

theorem written_items : written l.items = l.args := by
  have after := written_options l.after []
  rw [List.append_nil, show written [] = [] from rfl, List.append_nil] at after
  rw [items, written_options, args, ← after]
  rfl

theorem groups_items : CommandLine.groups l.items = l.groups := by
  rw [CommandLine.groups, items, List.filterMap_append]
  exact congrArg₂ (· ++ ·) (groups_options l.before) (groups_options l.after)

theorem accepted_items : Accepted l.items l.project where
  apart := by
    have after : Apart (l.after.map .option) := by
      rw [← List.append_nil (l.after.map _)]
      exact apart_options trivial fun _ _ _ => nofun
    refine apart_options after fun g hg paths => ?_
    exact absurd (Flag.eq_paths paths) (l.placed g hg)
  ne_empty := l.ne_empty
  arguments_eq := by
    refine ⟨0, ?_⟩
    rw [arguments, items, List.filterMap_append]
    exact congrArg₂ (· ++ ·) (arguments_options l.before) (congrArg (l.project :: ·) (arguments_options l.after))

theorem parse_args (environment : List (String × String)) (directory : Path) :
    parse environment directory l.args = .ok (l.meaning environment directory) :=
  parse_eq_ok_iff.2 ⟨l.items, l.project, l.written_items, l.accepted_items,
    by rw [groups_items, of_eq_meaning]⟩

/-- A command line is accepted and means what it says, and its options may change places with options of
another name, and with the path of the project. -/
theorem parse_command (environment : List (String × String)) (directory : Path) :
    parse environment directory l.args = .ok (l.meaning environment directory) ∧
      ∀ l' : Command, l'.project = l.project → Reordered l'.groups l.groups →
        parse environment directory l'.args = parse environment directory l.args := by
  refine ⟨l.parse_args environment directory, fun l' project reordered => ?_⟩
  have last := reordered.last?_eq
  have same : l'.meaning environment directory = l.meaning environment directory := by
    simp only [meaning, value?, ← isSome_last?, last, project]
  rw [l'.parse_args, l.parse_args, same]

end Command

namespace Shuffled

def verbose : Group := ⟨.verbose, "-v", [], by decide, rfl⟩

theorem isWhole_five : IsWhole 0 "5" := ⟨by decide +kernel, by decide +kernel⟩

def level : Group := ⟨.level, "-l", ["5"], by decide, "5", rfl, isWhole_five⟩

def paths : Group := ⟨.paths, "-p", ["src", "tests"], by decide, by decide, by decide⟩

/-- `-v app -l 5 -p src tests` -/
def command : Command := ⟨[verbose], "app", [level, paths], by decide, by decide, by decide⟩

/-- `-p src tests -l 5 app -v` -/
def shuffled : Command := ⟨[paths, level], "app", [verbose], by decide, by decide, by decide⟩

theorem parse_shuffled : shuffled.project = command.project ∧ Reordered shuffled.groups command.groups ∧
    parse [] [] shuffled.args = parse [] [] command.args := by
  have project : shuffled.project = command.project := rfl
  have reordered : Reordered shuffled.groups command.groups := by
    intro flag
    cases flag <;> rfl
  exact ⟨project, reordered, (command.parse_command [] []).2 shuffled project reordered⟩

end Shuffled

end Mender.CommandLine
