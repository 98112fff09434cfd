import Mender.Proofs.CommandLine.Items
import Mender.Proofs.Number.Denotation

/-! The grammar of command lines, apart from how they are read: options with their values around the path of
the project, a number being a numeral for it. More is accepted than its sentences: blank text for the number
zero, a numeral for a number that is not whole and is rounded to one, and empty arguments in front of the path.
A command line that is accepted is a sentence exactly if it has none of these. -/

namespace Mender.CommandLine

def IsBlank (s : String) : Prop := Text.trim s.toList = []

/-- A numeral for a whole number that is not below the bound. -/
def Denotes (least : Nat) (s : String) : Prop :=
  ∃ n : Nat, least ≤ n ∧ Number.denoted? s.toList = some (n : ℚ)

/-- The command lines with so many arguments that belong to no option. -/
inductive Sentence : Nat → List String → Prop
  | nil : Sentence 0 []
  | option {n : Nat} {rest values : List String} {spelling : String} (flag : Flag)
    (spelled : spelling ∈ flag.spellings) (takes : flag.kind.Takes Denotes values)
    (behind : Sentence n rest) : Sentence n (spelling :: (values ++ rest))
  | argument {n : Nat} {rest : List String} {s : String} (plain : isDashed s = false)
    (behind : Sentence n rest) : Sentence (n + 1) (s :: rest)

/-- The numbers of this option are numerals, and what they write is a whole number and not below the bound. -/
def Group.IsExact (g : Group) : Prop := ∀ least, g.flag.kind = .whole least → ∀ s ∈ g.values, Denotes least s

/-- The numbers of this option are numerals, but for a zero that may be blank. -/
def Group.IsLegible (g : Group) : Prop := ∀ least, g.flag.kind = .whole least → ∀ s ∈ g.values,
  IsBlank s ∧ least = 0 ∨ ∃ q, Number.denoted? s.toList = some q

/-- How many values an option has is told by its kind, unless they are paths. -/
theorem Kind.Takes.length_eq {whole whole' : Nat → String → Prop} {k : Kind} {values values' : List String}
    (h : k.Takes whole values) (h' : k.Takes whole' values') (hk : k ≠ .paths) :
    values.length = values'.length := by
  cases k with
  | switch => rw [show values = [] from h, show values' = [] from h']
  | text | whole =>
    obtain ⟨s, rfl, -⟩ := h
    obtain ⟨s', rfl, -⟩ := h'
    rfl
  | paths => exact absurd rfl hk

theorem Group.IsExact.takes {g : Group} (h : g.IsExact) : g.flag.kind.Takes Denotes g.values := by
  have admitted := g.admitted
  cases hk : g.flag.kind with
  | whole least =>
    rw [hk] at admitted
    obtain ⟨s, values_eq, -⟩ := admitted
    exact ⟨s, values_eq, h least hk s (by rw [values_eq]; exact List.mem_singleton_self s)⟩
  | _ =>
    rw [hk] at admitted
    exact admitted

namespace Sentence

variable {n : Nat} {s : String} {args rest values : List String} {items : List Item}

theorem of_argument (plain : isDashed s = false) (h : Sentence n (s :: rest)) :
    ∃ m, n = m + 1 ∧ Sentence m rest := by
  cases h with
  | option flag spelled =>
    rw [Flag.isDashed_of_mem_spellings spelled] at plain
    cases plain
  | argument _ behind => exact ⟨_, rfl, behind⟩

/-- Texts that are not written like options can only be arguments. -/
theorem of_arguments (plain : ∀ s ∈ values, isDashed s = false) (h : Sentence n (values ++ rest)) :
    ∃ m ≤ n, Sentence m rest := by
  induction values generalizing n with
  | nil => exact ⟨n, le_rfl, h⟩
  | cons s values ih =>
    obtain ⟨first, plain⟩ := List.forall_mem_cons.1 plain
    obtain ⟨m, rfl, behind⟩ := of_argument first h
    obtain ⟨k, le, behind⟩ := ih plain behind
    exact ⟨k, le.trans m.le_succ, behind⟩

theorem of_option {flag : Flag} (spelled : s ∈ flag.spellings) (h : Sentence n (s :: args)) :
    ∃ values rest, values ++ rest = args ∧ flag.kind.Takes Denotes values ∧ Sentence n rest := by
  generalize hs : s :: args = all at h
  cases h with
  | nil => cases hs
  | option flag' spelled' takes behind =>
    obtain ⟨rfl, rfl⟩ := List.cons.inj hs
    rw [← Flag.ofText?_eq_some_iff] at spelled spelled'
    obtain rfl := Option.some.inj (spelled.symm.trans spelled')
    exact ⟨_, _, rfl, takes, behind⟩
  | argument plain behind =>
    obtain ⟨rfl, rfl⟩ := List.cons.inj hs
    rw [Flag.isDashed_of_mem_spellings spelled] at plain
    cases plain

/-- Paths that are taken off the front of a list of paths leave paths. -/
theorem exists_append_of_plain {paths tail : List String} (ends : Ends rest)
    (plain : ∀ s ∈ paths, isDashed s = false) (h : paths ++ tail = values ++ rest) :
    ∃ more, values = paths ++ more ∧ tail = more ++ rest := by
  obtain ⟨more, rfl, rfl⟩ | ⟨more, rfl, rfl⟩ := List.append_eq_append_iff.1 h
  · exact ⟨more, rfl, rfl⟩
  · cases more with
    | nil => exact ⟨[], by simp, rfl⟩
    | cons s more =>
      have dashed := ends s rfl
      rw [plain s (by simp)] at dashed
      cases dashed

/-- A sentence that starts with an option goes on behind it, but for paths that it takes for arguments. -/
theorem of_group {g : Group} (ends : g.flag.kind = .paths → Ends rest) (h : Sentence n (g.words ++ rest)) :
    g.IsExact ∧ ∃ m ≤ n, Sentence m rest := by
  obtain ⟨values, tail, whole, takes, behind⟩ := of_option g.spelled h
  by_cases hk : g.flag.kind = .paths
  · have exact : g.IsExact := fun least h => absurd (hk.symm.trans h) nofun
    have admitted := g.admitted
    rw [hk] at takes admitted
    obtain ⟨more, values_eq, rfl⟩ := exists_append_of_plain (ends hk) takes.2 whole
    refine ⟨exact, of_arguments (fun s hs => admitted.2 s ?_) behind⟩
    rw [values_eq]
    exact List.mem_append_right _ hs
  · obtain ⟨rfl, rfl⟩ := List.append_inj whole (takes.length_eq g.admitted hk)
    refine ⟨fun least hwhole s hs => ?_, n, le_rfl, behind⟩
    rw [hwhole] at takes
    obtain ⟨t, ht, denotes⟩ := takes
    rw [ht, List.mem_singleton] at hs
    rwa [hs]

/-- However a command line is taken for a sentence, its numbers are the same, and no argument is lost. -/
theorem of_written (apart : Apart items) (h : Sentence n (written items)) :
    (arguments items).length ≤ n ∧ ∀ g ∈ groups items, g.IsExact := by
  induction items generalizing n with
  | nil => exact ⟨n.zero_le, by simp [groups]⟩
  | cons item items ih =>
    cases item with
    | argument s plain =>
      obtain ⟨m, rfl, behind⟩ := of_argument plain h
      obtain ⟨length, exact⟩ := ih apart behind
      exact ⟨Nat.succ_le_succ length, exact⟩
    | option g =>
      obtain ⟨ends, apart⟩ := apart
      obtain ⟨first, m, le, behind⟩ := of_group ends h
      obtain ⟨length, exact⟩ := ih apart behind
      exact ⟨length.trans le, List.forall_mem_cons.2 ⟨first, exact⟩⟩

theorem written (exact : ∀ g ∈ groups items, g.IsExact) :
    Sentence (arguments items).length (written items) := by
  induction items with
  | nil => exact nil
  | cons item items ih =>
    cases item with
    | argument s plain => exact argument plain (ih exact)
    | option g =>
      obtain ⟨first, exact⟩ := List.forall_mem_cons.1 exact
      exact option g.flag g.spelled (first.takes) (ih exact)

end Sentence

section Beyond

theorem Flag.least_le {flag : Flag} {least : Nat} (h : flag.kind = .whole least) : least = 0 ∨ least = 1 := by
  cases flag with
  | level | batchDelay => exact .inl (Kind.whole.inj h).symm
  | maxErrors | maxIterations => exact .inr (Kind.whole.inj h).symm
  | _ => cases h

/-- Of the options that take a number only one that may be zero can be given a blank text. -/
theorem Group.isLegible (g : Group) : g.IsLegible := by
  intro least hk s hs
  have admitted := g.admitted
  rw [hk] at admitted
  obtain ⟨t, values_eq, integer, le⟩ := admitted
  obtain rfl : s = t := by rwa [values_eq, List.mem_singleton] at hs
  by_cases blank : IsBlank s
  · refine .inl ⟨blank, ?_⟩
    have zero : number s = 0 := by
      rw [number, Number.read, show Text.trim s.toList = [] from blank]
    rw [zero] at le
    obtain rfl | rfl := Flag.least_le hk
    · rfl
    · exact absurd le (by decide +kernel)
  · exact .inr (Option.isSome_iff_exists.1 (Number.isSome_denoted? blank integer))

/-- What is accepted, and how much of it is in the grammar. A command line that is accepted consists of options,
with values of their kinds and each number a numeral or blank for zero, and of the path of the project behind
nothing but empty arguments. It is a sentence with one argument exactly if there are none of these and each
numeral writes a whole number. -/
theorem parse_accepts_iff (environment : List (String × String)) (directory : Path) (args : List String) :
    (∃ c, parse environment directory args = .ok c) ↔
      ∃ items project, written items = args ∧ Accepted items project ∧
        (∀ g ∈ groups items, g.IsLegible) ∧
        (Sentence 1 args ↔ arguments items = [project] ∧ ∀ g ∈ groups items, g.IsExact) := by
  constructor
  · rintro ⟨c, h⟩
    obtain ⟨items, project, rfl, accepted, -⟩ := parse_eq_ok_iff.1 h
    refine ⟨items, project, rfl, accepted, fun g _ => g.isLegible, fun sentence => ?_, ?_⟩
    · obtain ⟨length, exact⟩ := sentence.of_written accepted.apart
      obtain ⟨n, arguments_eq⟩ := accepted.arguments_eq
      rw [arguments_eq, List.length_append, List.length_replicate, List.length_singleton] at length
      obtain rfl : n = 0 := by omega
      exact ⟨arguments_eq, exact⟩
    · rintro ⟨arguments_eq, exact⟩
      have sentence := Sentence.written exact
      rwa [arguments_eq] at sentence
  · rintro ⟨items, project, rfl, accepted, -⟩
    exact ⟨_, parse_eq_ok_iff.2 ⟨items, project, rfl, accepted, rfl⟩⟩

end Beyond

namespace Unset

theorem isWhole_empty : IsWhole 0 "" := ⟨by decide +kernel, by decide +kernel⟩

def level : Group := ⟨.level, "--level", [""], by decide, "", rfl, isWhole_empty⟩

/-- `/p --level ""`, the text of a variable that is not set. -/
def items : List Item := [.argument "/p" (by decide), .option level]

theorem accepted_items : Accepted items "/p" where
  apart := ⟨nofun, trivial⟩
  ne_empty := by decide
  arguments_eq := ⟨0, rfl⟩

/-- The level is zero then, though no numeral says so. -/
theorem level_zero : (∃ c, parse [] [] ["/p", "--level", ""] = .ok c ∧ c.level = some 0) ∧
    ¬ Sentence 1 ["/p", "--level", ""] := by
  refine ⟨⟨_, parse_eq_ok_iff.2 ⟨items, "/p", rfl, accepted_items, rfl⟩, ?_⟩, fun sentence => ?_⟩
  · decide +kernel
  · have exact := (Sentence.of_written accepted_items.apart sentence).2
    obtain ⟨n, -, denoted⟩ := exact level (List.mem_singleton_self level) 0 rfl "" (List.mem_singleton_self "")
    cases denoted

end Unset

end Mender.CommandLine
