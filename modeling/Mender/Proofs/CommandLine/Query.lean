import Mender.Proofs.CommandLine.Items
import Mender.Proofs.Number.Written
import Mender.Run

/-! What a command line asks of the analyzer, and the arguments that say so. They are joined without anything
between the options and the paths. No value is taken for an option all the same, and none is lost, as the values
of a command line that was accepted are not written like options. -/

namespace Mender.CommandLine

@[ext]
structure Query where
  verbose : Bool
  level : Option Number
  configPath : Option String
  paths : Option (List String)
  deriving DecidableEq

/-- What a configuration asks of the analyzer. An empty path of its settings is none. -/
def Config.query (c : Config) : Query where
  verbose := c.verbose
  level := c.level
  configPath := c.configPath.filter (· != "")
  paths := c.paths

def switch (flag : String) (on : Bool) : List String := if on then [flag] else []

def optional (flag : String) : Option String → List String
  | some value => [flag, value]
  | none => []

namespace Query

def arguments (q : Query) : List String :=
  "analyse" :: (switch "-v" q.verbose ++ (optional "--level" (q.level.map Number.toText) ++
    (optional "--configuration" q.configPath ++ q.paths.getD [])))

/-- The level is a whole number, no other value is written like an option, and what is given is not empty. -/
structure Plain (q : Query) : Prop where
  level : ∀ x ∈ q.level, ∃ n, x.toNat? = some n
  configPath : ∀ s ∈ q.configPath, s ≠ "" ∧ isDashed s = false
  given : ∀ paths ∈ q.paths, paths ≠ []
  paths : ∀ s ∈ q.paths.getD [], isDashed s = false

structure Undashed (q : Query) : Prop where
  level : ∀ x ∈ q.level, isDashed x.toText = false
  configPath : ∀ s ∈ q.configPath, isDashed s = false
  paths : ∀ s ∈ q.paths.getD [], isDashed s = false

end Query

section Parts

variable {flag s : String} {on on' : Bool} {value? value'? : Option String} {rest rest' : List String}

theorem switch_append_inj (hr : rest.head? ≠ some flag) (hr' : rest'.head? ≠ some flag)
    (h : switch flag on ++ rest = switch flag on' ++ rest') : on = on' ∧ rest = rest' := by
  cases on with
  | false =>
    cases on' with
    | false => exact ⟨rfl, h⟩
    | true =>
      rw [show rest = flag :: rest' from h] at hr
      exact absurd rfl hr
  | true =>
    cases on' with
    | false =>
      rw [show rest' = flag :: rest from h.symm] at hr'
      exact absurd rfl hr'
    | true => exact ⟨rfl, (List.cons.inj h).2⟩

theorem optional_append_inj (hr : rest.head? ≠ some flag) (hr' : rest'.head? ≠ some flag)
    (h : optional flag value? ++ rest = optional flag value'? ++ rest') : value? = value'? ∧ rest = rest' := by
  cases value? with
  | none =>
    cases value'? with
    | none => exact ⟨rfl, h⟩
    | some value' =>
      rw [show rest = flag :: value' :: rest' from h] at hr
      exact absurd rfl hr
  | some value =>
    cases value'? with
    | none =>
      rw [show rest' = flag :: value :: rest from h.symm] at hr'
      exact absurd rfl hr'
    | some value' =>
      obtain ⟨rfl, rfl⟩ : value = value' ∧ rest = rest' := by simpa [optional] using h
      exact ⟨rfl, rfl⟩

theorem head?_optional_append (other : flag ≠ s) (h : rest.head? ≠ some s) :
    (optional flag value? ++ rest).head? ≠ some s := by
  cases value? with
  | none => exact h
  | some value => simpa [optional] using other

end Parts

namespace Query.Plain

variable {q q' : Query}

theorem undashed (h : q.Plain) : q.Undashed where
  level x hx := by
    obtain ⟨n, whole⟩ := h.level x hx
    exact beq_eq_false_iff_ne.2 (Number.head?_toText whole)
  configPath s hs := (h.configPath s hs).2
  paths := h.paths

theorem head?_paths (h : q.Plain) {s : String} (dashed : isDashed s = true) :
    (q.paths.getD []).head? ≠ some s := by
  intro head
  rw [h.paths s (List.mem_of_head? head)] at dashed
  cases dashed

theorem paths_eq (h : q.Plain) :
    q.paths = if q.paths.getD [] = [] then none else some (q.paths.getD []) := by
  cases hp : q.paths with
  | none => rfl
  | some paths => exact (if_neg (h.given paths hp)).symm

theorem level_inj (h : q.Plain) (h' : q'.Plain)
    (same : q.level.map Number.toText = q'.level.map Number.toText) : q.level = q'.level := by
  cases hl : q.level with
  | none =>
    rw [hl, Option.map_none, eq_comm, Option.map_eq_none_iff] at same
    exact same.symm
  | some x =>
    rw [hl, Option.map_some, eq_comm, Option.map_eq_some_iff] at same
    obtain ⟨y, hy, text⟩ := same
    obtain ⟨n, hx⟩ := h.level x hl
    obtain ⟨m, hm⟩ := h'.level y hy
    rw [hy, Number.toText_inj hm hx text]

/-- What is asked can be told from the arguments. -/
theorem arguments_inj (h : q.Plain) (h' : q'.Plain) (same : q.arguments = q'.arguments) : q = q' := by
  have behind {q : Query} (h : q.Plain) {s : String} (dashed : isDashed s = true)
      (other : "--configuration" ≠ s) :
      (optional "--configuration" q.configPath ++ q.paths.getD []).head? ≠ some s :=
    head?_optional_append other (h.head?_paths dashed)
  have front {q : Query} (h : q.Plain) :
      (optional "--level" (q.level.map Number.toText) ++
        (optional "--configuration" q.configPath ++ q.paths.getD [])).head? ≠ some "-v" :=
    head?_optional_append (by decide) (behind h (by decide) (by decide))
  obtain ⟨verbose, same⟩ := switch_append_inj (front h) (front h') (List.cons.inj same).2
  obtain ⟨level, same⟩ := optional_append_inj (behind h (by decide) (by decide))
    (behind h' (by decide) (by decide)) same
  obtain ⟨configPath, same⟩ := optional_append_inj (h.head?_paths (by decide))
    (h'.head?_paths (by decide)) same
  have paths : q.paths = q'.paths := by rw [h.paths_eq, h'.paths_eq, same]
  exact Query.ext verbose (h.level_inj h' level) configPath paths

end Query.Plain

section Accepted

variable {c : Config} {flag : Flag} {values : List String} {s : String}

theorem IsWhole.exists_toNat? (h : IsWhole 0 s) : ∃ n, (number s).toNat? = some n := by
  obtain ⟨integer, low⟩ := h
  cases hx : number s with
  | nan | infinite =>
    rw [hx] at integer
    cases integer
  | finite count isCount =>
    rw [hx, show Number.ofNat 0 = 0 from rfl, Number.zero_eq, Number.le, decide_eq_true_eq] at low
    rw [hx, Number.isInteger, beq_iff_eq] at integer
    exact ⟨_, if_pos ⟨low, integer⟩⟩

theorem Config.plain_give (h : c.query.Plain) (admitted : flag.kind.Admits values) :
    (c.give flag values).query.Plain := by
  cases flag with
  | level =>
    obtain ⟨s, rfl, whole⟩ := admitted
    refine { h with level := ?_ }
    rintro _ ⟨⟩
    exact whole.exists_toNat?
  | config =>
    obtain ⟨s, rfl, plain⟩ := admitted
    refine { h with configPath := fun t ht => ?_ }
    obtain ⟨rfl, given⟩ : s = t ∧ t ≠ "" := by simpa [query, give] using ht
    exact ⟨given, plain⟩
  | paths =>
    refine { h with given := ?_, paths := admitted.2 }
    rintro _ ⟨⟩
    exact admitted.1
  | _ => exact { h with }

theorem Config.plain_giveAll (h : c.query.Plain) (gs : List Group) : (c.giveAll gs).query.Plain := by
  induction gs generalizing c with
  | nil => exact h
  | cons g gs ih => exact ih (plain_give h g.admitted)

/-- What a command line asks is plain, if it is accepted. -/
theorem plain_of_parse_ok {environment : List (String × String)} {directory : Path} {args : List String}
    (h : parse environment directory args = .ok c) : c.query.Plain := by
  obtain ⟨items, project, -, -, rfl⟩ := parse_eq_ok_iff.1 h
  have initial : (Config.initial environment).query.Plain := by
    constructor <;> simp [Config.initial, Config.query]
  exact Config.plain_giveAll initial (groups items)

theorem arguments_query (c : Config) :
    Analyzer.arguments ⟨c.paths, c.level, c.configPath, some c.verbose⟩ = c.query.arguments := by
  simp only [Analyzer.arguments, Query.arguments, Config.query, switch, Option.some.injEq,
    List.append_assoc, List.cons_append, List.nil_append]
  cases c.level <;> cases c.configPath.filter (· != "") <;> rfl

end Accepted

end Mender.CommandLine
