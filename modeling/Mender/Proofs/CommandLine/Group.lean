import Mathlib.Data.List.TakeWhile
import Mender.CommandLine
import Mender.Proofs.Steps

/-! The options of a command line, each with its values. Which values an option takes of the arguments
behind it is told by its kind, and it is set exactly if they are as the kind has them. -/

namespace Mender.CommandLine

/-- What stands behind an option: nothing, a text, a whole number that is not below a bound, or paths. -/
inductive Kind where
  | switch
  | text
  | whole (least : Nat)
  | paths
  deriving DecidableEq

def Flag.kind : Flag → Kind
  | .paths => .paths
  | .level | .batchDelay => .whole 0
  | .maxErrors | .maxIterations => .whole 1
  | .config | .binary | .statsFile => .text
  | .verbose | .dryRun | .debug => .switch

def number (s : String) : Number := Number.read s.toList

/-- An argument that is read as a whole number, and not one below the bound. -/
def IsWhole (least : Nat) (s : String) : Prop :=
  (number s).isInteger = true ∧ Number.le (.ofNat least) (number s) = true

/-- The values that may stand behind an option, `whole` telling which texts are whole numbers that are not
below a bound. -/
def Kind.Takes (whole : Nat → String → Prop) : Kind → List String → Prop
  | .switch, values => values = []
  | .text, values => ∃ s, values = [s] ∧ isDashed s = false
  | .whole least, values => ∃ s, values = [s] ∧ whole least s
  | .paths, values => values ≠ [] ∧ ∀ s ∈ values, isDashed s = false

def Kind.Admits : Kind → List String → Prop := Kind.Takes IsWhole

def Config.give (c : Config) : Flag → List String → Config
  | .paths, paths => { c with paths := some paths }
  | .level, values => { c with level := some (number (values.headD "")) }
  | .config, values => { c with configPath := some (values.headD "") }
  | .verbose, _ => { c with verbose := true }
  | .maxErrors, values => { c with maxErrorsPerBatch := number (values.headD "") }
  | .maxIterations, values => { c with maxIterations := number (values.headD "") }
  | .dryRun, _ => { c with dryRun := true }
  | .binary, values => { c with binary := some (values.headD "") }
  | .batchDelay, values => { c with batchDelay := number (values.headD "") }
  | .statsFile, values => { c with statsFile := some (values.headD "") }
  | .debug, _ => { c with debug := true }

section Fields

variable (c : Config) (flag : Flag) (values : List String)

@[simp] theorem Config.projectPath_give : (c.give flag values).projectPath = c.projectPath := by
  cases flag <;> rfl

@[simp] theorem Config.paths_give : (c.give flag values).paths =
    if flag = .paths then some values else c.paths := by
  cases flag <;> rfl

@[simp] theorem Config.level_give : (c.give flag values).level =
    if flag = .level then some (number (values.headD "")) else c.level := by
  cases flag <;> rfl

@[simp] theorem Config.configPath_give : (c.give flag values).configPath =
    if flag = .config then some (values.headD "") else c.configPath := by
  cases flag <;> rfl

@[simp] theorem Config.verbose_give : (c.give flag values).verbose =
    if flag = .verbose then true else c.verbose := by
  cases flag <;> rfl

@[simp] theorem Config.maxErrorsPerBatch_give : (c.give flag values).maxErrorsPerBatch =
    if flag = .maxErrors then number (values.headD "") else c.maxErrorsPerBatch := by
  cases flag <;> rfl

@[simp] theorem Config.maxIterations_give : (c.give flag values).maxIterations =
    if flag = .maxIterations then number (values.headD "") else c.maxIterations := by
  cases flag <;> rfl

@[simp] theorem Config.batchDelay_give : (c.give flag values).batchDelay =
    if flag = .batchDelay then number (values.headD "") else c.batchDelay := by
  cases flag <;> rfl

@[simp] theorem Config.dryRun_give : (c.give flag values).dryRun =
    if flag = .dryRun then true else c.dryRun := by
  cases flag <;> rfl

@[simp] theorem Config.debug_give : (c.give flag values).debug =
    if flag = .debug then true else c.debug := by
  cases flag <;> rfl

@[simp] theorem Config.binary_give : (c.give flag values).binary =
    if flag = .binary then some (values.headD "") else c.binary := by
  cases flag <;> rfl

@[simp] theorem Config.statsFile_give : (c.give flag values).statsFile =
    if flag = .statsFile then some (values.headD "") else c.statsFile := by
  cases flag <;> rfl

end Fields

namespace Flag

variable {flag : Flag} {s : String}

theorem mem_all (flag : Flag) : flag ∈ all := by
  cases flag <;> decide

theorem ofText?_eq_some_iff : ofText? s = some flag ↔ s ∈ flag.spellings := by
  -- no spelling is one of two options
  have each : ∀ flag ∈ all, ∀ s ∈ flag.spellings, ofText? s = some flag := by decide
  refine ⟨fun h => ?_, each flag flag.mem_all s⟩
  simpa using List.find?_some h

theorem isDashed_of_mem_spellings (h : s ∈ flag.spellings) : isDashed s = true := by
  have each : ∀ flag ∈ all, ∀ s ∈ flag.spellings, isDashed s = true := by decide
  exact each flag flag.mem_all s h

theorem ofText?_of_not_isDashed (h : isDashed s = false) : ofText? s = none := by
  cases hs : ofText? s with
  | none => rfl
  | some flag =>
    rw [isDashed_of_mem_spellings (ofText?_eq_some_iff.1 hs)] at h
    cases h

end Flag

/-- What follows is an option, or nothing. -/
def Ends (rest : List String) : Prop := ∀ s ∈ rest.head?, isDashed s = true

section Values

variable {arg s : String} {rest values : List String} {value? : Option String}

theorem readValue_eq_ok_iff :
    readValue arg value? = .ok s ↔ value? = some s ∧ isDashed s = false := by
  cases value? with
  | none => simp [readValue]
  | some v =>
    rw [readValue, Option.some.injEq]
    split
    case isTrue dashed =>
      refine iff_of_false nofun ?_
      rintro ⟨rfl, plain⟩
      rw [plain] at dashed
      cases dashed
    case isFalse plain =>
      rw [Except.ok.injEq]
      refine ⟨?_, And.left⟩
      rintro rfl
      exact ⟨rfl, Bool.eq_false_iff.2 plain⟩

theorem readInteger_eq_ok_iff {least : Nat} {x : Number} :
    readInteger arg least value? = .ok x ↔ ∃ s, value? = some s ∧ IsWhole least s ∧ number s = x := by
  cases value? with
  | none =>
    refine iff_of_false ?_ (by simp)
    exact nofun
  | some v =>
    have read : readInteger arg least (some v) =
        if (number v).isInteger && Number.le (.ofNat least) (number v) then .ok (number v)
        else .error (.noInteger arg least v) := rfl
    simp only [read, Option.some.injEq, exists_eq_left']
    rw [IsWhole, ← Bool.and_eq_true_iff]
    split
    case isTrue h => simp [h]
    case isFalse h => simp [h]

theorem singleton_append_tail_iff : [s] ++ rest.tail = rest ↔ rest.head? = some s := by
  cases rest with
  | nil => simp
  | cons t rest => simp [eq_comm]

/-- The paths behind an option are those in front of the next option. -/
theorem append_dropWhile_iff : (∀ s ∈ values, isDashed s = false) ∧
    values ++ rest.dropWhile (!isDashed ·) = rest ↔ values = rest.takeWhile (!isDashed ·) := by
  have whole : rest.takeWhile (!isDashed ·) ++ rest.dropWhile (!isDashed ·) = rest :=
    List.takeWhile_append_dropWhile
  constructor
  · rintro ⟨-, h⟩
    exact List.append_cancel_right (h.trans whole.symm)
  · rintro rfl
    refine ⟨fun s hs => ?_, whole⟩
    simpa using List.mem_takeWhile_imp hs

end Values

section Kinds

variable {flag : Flag} {values rest : List String} {c c' : Config} {arg : String} {least : Nat}

theorem Flag.eq_paths (h : flag.kind = .paths) : flag = .paths := by
  cases flag with
  | paths => rfl
  | _ => cases h

theorem Flag.after_eq (flag : Flag) (rest : List String) : flag.after rest =
    match flag.kind with
    | .switch => rest
    | .text | .whole _ => rest.tail
    | .paths => rest.dropWhile (!isDashed ·) := by
  cases flag <;> rfl

theorem Flag.after_append (h : flag.kind.Admits values) (ends : flag.kind = .paths → Ends rest) :
    flag.after (values ++ rest) = rest := by
  rw [after_eq]
  cases hk : flag.kind with
  | switch =>
    rw [hk] at h
    obtain rfl : values = [] := h
    rfl
  | text | whole =>
    rw [hk] at h
    obtain ⟨s, rfl, -⟩ := h
    rfl
  | paths =>
    rw [hk] at h
    have plain : ∀ s ∈ values, (!isDashed s) = true := fun s hs => by simp [h.2 s hs]
    dsimp only
    rw [List.dropWhile_append_of_pos plain]
    cases rest with
    | nil => rfl
    | cons s rest => exact List.dropWhile_cons_of_neg (by simp [ends hk s rfl])

theorem Flag.ends_after (h : flag.kind = .paths) (rest : List String) : Ends (flag.after rest) := by
  obtain rfl := Flag.eq_paths h
  intro s hs
  have := List.head?_dropWhile_not (!isDashed ·) rest
  rw [after, Option.mem_def] at hs
  rw [hs] at this
  simpa using this

theorem Config.set_of_switch (h : flag.kind = .switch) : c.set flag arg rest = .ok (c.give flag []) := by
  cases flag with
  | verbose | dryRun | debug => rfl
  | _ => cases h

theorem Config.set_of_text (h : flag.kind = .text) :
    c.set flag arg rest = (readValue arg rest.head?).map fun s => c.give flag [s] := by
  cases flag with
  | config | binary | statsFile =>
    unfold set
    dsimp only
    cases readValue arg rest.head? <;> rfl
  | _ => cases h

theorem Config.set_of_whole (h : flag.kind = .whole least) :
    c.set flag arg rest = (readInteger arg least rest.head?).map fun _ => c.give flag (rest.take 1) := by
  cases flag with
  | level | batchDelay | maxErrors | maxIterations =>
    obtain rfl := Kind.whole.inj h
    unfold set
    dsimp only
    cases hx : readInteger arg _ rest.head? with
    | error misuse => rfl
    | ok x =>
      obtain ⟨s, hs, -, rfl⟩ := readInteger_eq_ok_iff.1 hx
      obtain ⟨rest, rfl⟩ := List.head?_eq_some_iff.1 hs
      rfl
  | _ => cases h

theorem Config.set_paths : c.set .paths arg rest =
    if rest.takeWhile (!isDashed ·) = [] then .error (.noPaths arg)
    else .ok (c.give .paths (rest.takeWhile (!isDashed ·))) := by
  unfold set
  dsimp only
  cases rest.takeWhile (!isDashed ·) <;> rfl

/-- An option is set exactly if its values are as its kind has them. -/
theorem Config.set_eq_ok_iff : c.set flag arg rest = .ok c' ↔
    ∃ values, flag.kind.Admits values ∧ values ++ flag.after rest = rest ∧ c.give flag values = c' := by
  rw [Flag.after_eq]
  cases hk : flag.kind with
  | switch => simp [Kind.Admits, Kind.Takes, set_of_switch hk]
  | text =>
    rw [set_of_text hk, map_eq_ok_iff]
    constructor
    · rintro ⟨s, hs, rfl⟩
      obtain ⟨head, plain⟩ := readValue_eq_ok_iff.1 hs
      exact ⟨[s], ⟨s, rfl, plain⟩, singleton_append_tail_iff.2 head, rfl⟩
    · rintro ⟨_, ⟨s, rfl, plain⟩, whole, rfl⟩
      exact ⟨s, readValue_eq_ok_iff.2 ⟨singleton_append_tail_iff.1 whole, plain⟩, rfl⟩
  | whole least =>
    rw [set_of_whole hk, map_eq_ok_iff]
    constructor
    · rintro ⟨x, hx, rfl⟩
      obtain ⟨s, head, isWhole, rfl⟩ := readInteger_eq_ok_iff.1 hx
      obtain ⟨rest, rfl⟩ := List.head?_eq_some_iff.1 head
      exact ⟨[s], ⟨s, rfl, isWhole⟩, rfl, rfl⟩
    · rintro ⟨_, ⟨s, rfl, isWhole⟩, whole, rfl⟩
      obtain ⟨rest, rfl⟩ := List.head?_eq_some_iff.1 (singleton_append_tail_iff.1 whole)
      exact ⟨number s, readInteger_eq_ok_iff.2 ⟨s, rfl, isWhole, rfl⟩, rfl⟩
  | paths =>
    obtain rfl := Flag.eq_paths hk
    rw [set_paths]
    constructor
    · intro h
      split at h
      case isTrue => cases h
      case isFalse some =>
        obtain ⟨plain, whole⟩ := append_dropWhile_iff.2 rfl
        exact ⟨_, ⟨some, plain⟩, whole, Except.ok.inj h⟩
    · rintro ⟨values, ⟨some, plain⟩, whole, rfl⟩
      rw [← append_dropWhile_iff.1 ⟨plain, whole⟩, if_neg some]

end Kinds

end Mender.CommandLine
