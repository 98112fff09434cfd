import Mender.Proofs.CommandLine.Group

/-! What a command line that is accepted consists of: options with their values, and arguments of which
none stands where a list of paths would take it. Only the last argument can name the project; each one in
front of it is empty. -/

namespace Mender.CommandLine

structure Group where
  flag : Flag
  spelling : String
  values : List String
  spelled : spelling ∈ flag.spellings
  admitted : flag.kind.Admits values

def Group.words (g : Group) : List String := g.spelling :: g.values

inductive Item where
  | option (g : Group)
  | argument (s : String) (plain : isDashed s = false)

namespace Item

def words : Item → List String
  | .option g => g.words
  | .argument s _ => [s]

def group? : Item → Option Group
  | .option g => some g
  | .argument .. => none

def argument? : Item → Option String
  | .option _ => none
  | .argument s _ => some s

end Item

section Parts

variable (items : List Item)

def written : List String := items.flatMap Item.words

def groups : List Group := items.filterMap Item.group?

def arguments : List String := items.filterMap Item.argument?

/-- Behind a list of paths there is an option or nothing. -/
def Apart : List Item → Prop
  | [] => True
  | .option g :: items => (g.flag.kind = .paths → Ends (written items)) ∧ Apart items
  | .argument .. :: items => Apart items

end Parts

def Config.giveAll (c : Config) (gs : List Group) : Config := gs.foldl (fun c g => c.give g.flag g.values) c

def Config.after (c : Config) (items : List Item) : Config :=
  { c.giveAll (groups items) with projectPath := (arguments items).getLast?.getD c.projectPath }

section Take

variable {c c' : Config} {args : List String}

theorem Config.after_option (c : Config) (g : Group) (items : List Item) :
    c.after (.option g :: items) = (c.give g.flag g.values).after items := by
  simp only [after, groups, arguments, List.filterMap_cons, Item.group?, Item.argument?, projectPath_give]
  rfl

theorem Config.give_project (c : Config) (p : String) (flag : Flag) (values : List String) :
    ({ c with projectPath := p } : Config).give flag values =
      { c.give flag values with projectPath := p } := by
  cases flag <;> rfl

theorem Config.giveAll_project (c : Config) (p : String) (gs : List Group) :
    ({ c with projectPath := p } : Config).giveAll gs = { c.giveAll gs with projectPath := p } := by
  induction gs generalizing c with
  | nil => rfl
  | cons g gs ih =>
    rw [giveAll, List.foldl_cons, give_project]
    exact ih _

theorem Config.after_argument (c : Config) (s : String) (plain : isDashed s = false)
    (items : List Item) :
    c.after (.argument s plain :: items) = ({ c with projectPath := s } : Config).after items := by
  simp only [after, groups, arguments, List.filterMap_cons, Item.group?, Item.argument?, giveAll_project]
  rw [List.getLast?_cons, Option.getD_some]

theorem Config.exists_items (h : c.take args = .ok c') :
    ∃ items, written items = args ∧ Apart items ∧
      (∀ s ∈ (c.projectPath :: arguments items).dropLast, s = "") ∧ c.after items = c' := by
  induction c, args using Config.take.induct with
  | case1 c =>
    rw [take] at h
    exact ⟨[], rfl, trivial, by simp [arguments], Except.ok.inj h⟩
  | case2 c arg rest flag hflag ih =>
    rw [take, hflag] at h
    dsimp only at h
    obtain ⟨c₁, hset, h⟩ := bind_eq_ok_iff.1 h
    obtain ⟨items, hwritten, apart, empty, after⟩ := ih c₁ h
    obtain ⟨values, admitted, whole, rfl⟩ := set_eq_ok_iff.1 hset
    rw [projectPath_give] at empty
    refine ⟨.option ⟨flag, arg, values, Flag.ofText?_eq_some_iff.1 hflag, admitted⟩ :: items,
      ?_, ⟨fun paths => ?_, apart⟩, empty, ?_⟩
    · rw [← whole, ← hwritten]
      rfl
    · rw [hwritten]
      exact Flag.ends_after paths rest
    · rw [after_option, after]
  | case3 c arg rest hflag ih =>
    rw [take, hflag] at h
    dsimp only at h
    unfold setProject at h
    split at h
    case isTrue => cases h
    case isFalse plain =>
      split at h
      case isTrue => cases h
      case isFalse free =>
        obtain ⟨items, hwritten, apart, empty, after⟩ := ih _ h
        refine ⟨.argument arg (Bool.eq_false_iff.2 plain) :: items, ?_, apart, ?_, ?_⟩
        · rw [← hwritten]
          rfl
        · exact List.forall_mem_cons.2 ⟨not_not.1 free, empty⟩
        · rw [after_argument, after]

theorem Config.take_written {items : List Item} (apart : Apart items)
    (empty : ∀ s ∈ (c.projectPath :: arguments items).dropLast, s = "") :
    c.take (written items) = .ok (c.after items) := by
  induction items generalizing c with
  | nil =>
    rw [written, List.flatMap_nil, take]
    rfl
  | cons item items ih =>
    cases item with
    | option g =>
      obtain ⟨ends, apart⟩ := apart
      have after := Flag.after_append g.admitted ends
      have set : c.set g.flag g.spelling (g.values ++ written items) = .ok (c.give g.flag g.values) :=
        set_eq_ok_iff.2 ⟨g.values, g.admitted, by rw [after], rfl⟩
      have words : written (.option g :: items) = g.spelling :: (g.values ++ written items) := rfl
      rw [words, take, Flag.ofText?_eq_some_iff.2 g.spelled]
      dsimp only
      rw [set, after_option, ← ih apart (by rwa [projectPath_give])]
      exact congrArg _ after
    | argument s plain =>
      obtain ⟨free, empty⟩ := List.forall_mem_cons.1
        (show ∀ t ∈ c.projectPath :: (s :: arguments items).dropLast, t = "" from empty)
      have words : written (.argument s plain :: items) = s :: written items := rfl
      have set : c.setProject s = .ok { c with projectPath := s } := by
        rw [setProject, if_neg (by rw [plain]; exact Bool.false_ne_true), if_neg (not_not.2 free)]
      rw [words, take, Flag.ofText?_of_not_isDashed plain]
      dsimp only
      rw [set, after_argument, ← ih apart empty]
      rfl

end Take

structure Accepted (items : List Item) (project : String) : Prop where
  apart : Apart items
  ne_empty : project ≠ ""
  arguments_eq : ∃ n, arguments items = List.replicate n "" ++ [project]

def Config.of (environment : List (String × String)) (directory : Path) (project : String)
    (gs : List Group) : Config :=
  { (initial environment).giveAll gs with
    projectPath := (Path.resolve directory project.toList).toText }

theorem eq_replicate_append {args : List String} {project : String} (last : args.getLast? = some project)
    (empty : ∀ s ∈ ("" :: args).dropLast, s = "") : ∃ n, args = List.replicate n "" ++ [project] := by
  obtain ⟨before, rfl⟩ := List.getLast?_eq_some_iff.1 last
  rw [← List.cons_append, List.dropLast_concat, List.forall_mem_cons] at empty
  exact ⟨before.length, congrArg (· ++ [project]) (List.eq_replicate_of_mem empty.2)⟩

/-- A command line is accepted exactly if it is made of items that are. -/
theorem parse_eq_ok_iff {environment : List (String × String)} {directory : Path} {args : List String}
    {c : Config} : parse environment directory args = .ok c ↔
      ∃ items project, written items = args ∧ Accepted items project ∧
        .of environment directory project (groups items) = c := by
  have parse_eq : parse environment directory args =
      ((Config.initial environment).take args).bind fun c =>
        if c.projectPath = "" then .error .noProject
        else .ok { c with projectPath := (Path.resolve directory c.projectPath.toList).toText } := by
    unfold parse
    cases (Config.initial environment).take args with
    | error misuse => rfl
    | ok c =>
      change (if c.projectPath = "" then _ else _ : Except Misuse Config) = if c.projectPath = "" then _ else _
      split <;> rfl
  rw [parse_eq]
  constructor
  · intro h
    obtain ⟨c₀, hc, h⟩ := bind_eq_ok_iff.1 h
    obtain ⟨items, hwritten, apart, empty, rfl⟩ := Config.exists_items hc
    split at h
    case isTrue => cases h
    case isFalse given =>
      cases last : (arguments items).getLast? with
      | none =>
        rw [Config.after, last] at given
        exact absurd rfl given
      | some project =>
        rw [Config.after, last] at given h
        exact ⟨items, project, hwritten, ⟨apart, given, eq_replicate_append last empty⟩, Except.ok.inj h⟩
  · rintro ⟨items, project, rfl, ⟨apart, ne_empty, n, arguments_eq⟩, rfl⟩
    have empty : ∀ s ∈ ("" :: arguments items).dropLast, s = "" := by
      rw [arguments_eq, ← List.cons_append, List.dropLast_concat]
      exact List.forall_mem_cons.2 ⟨rfl, fun s => List.eq_of_mem_replicate⟩
    have named : ((Config.initial environment).after items).projectPath = project := by
      rw [Config.after, arguments_eq, List.getLast?_concat]
      rfl
    rw [Config.take_written apart empty]
    change (if _ = "" then _ else _ : Except Misuse Config) = _
    rw [named, if_neg ne_empty]
    rfl

end Mender.CommandLine
