import Mender.Proofs.CommandLine.Group
import Mender.Proofs.Run.ExitCode

/-! What debugging does to a run: nothing but to add lines to what is said. Without the switch on the
command line it is the setting alone that asks for it, and two runs that differ in it come to the same. -/

namespace Mender

namespace CommandLine

def Config.debugging (debug : Bool) (c : Config) : Config := { c with debug }

theorem Flag.after_subset (flag : Flag) (rest : List String) : flag.after rest ⊆ rest := by
  cases flag with
  | paths => exact (List.dropWhile_sublist _).subset
  | verbose | dryRun | debug => exact List.Subset.refl _
  | _ => exact (List.tail_sublist rest).subset

namespace Config

/-- Options other than the switch are read alike whether there is debugging or not. -/
theorem set_debugging (debug : Bool) (c : Config) {flag : Flag} (h : flag ≠ .debug) (arg : String)
    (rest : List String) :
    (c.debugging debug).set flag arg rest = (c.set flag arg rest).map (debugging debug) := by
  unfold set
  cases flag with
  | debug => exact absurd rfl h
  | verbose | dryRun => rfl
  | paths =>
    dsimp only
    cases (rest.takeWhile (!isDashed ·)).isEmpty <;> rfl
  | level | maxErrors | maxIterations | batchDelay =>
    dsimp only
    generalize readInteger arg _ rest.head? = value
    cases value <;> rfl
  | config | binary | statsFile =>
    dsimp only
    cases readValue arg rest.head? <;> rfl

theorem setProject_debugging (debug : Bool) (c : Config) (arg : String) :
    (c.debugging debug).setProject arg = (c.setProject arg).map (debugging debug) := by
  unfold setProject
  rw [show (c.debugging debug).projectPath = c.projectPath from rfl]
  split
  · rfl
  · split <;> rfl

/-- A command line without the switch leaves debugging as it was, and is read alike either way. -/
theorem take_debugging (debug : Bool) (c : Config) {args : List String} (silent : "--debug" ∉ args) :
    (c.debugging debug).take args = (c.take args).map (debugging debug) := by
  induction c, args using Config.take.induct with
  | case1 c => rw [take, take]; rfl
  | case2 c arg rest flag hflag ih =>
    have other : flag ≠ .debug := by
      rintro rfl
      have spelled := Flag.ofText?_eq_some_iff.1 hflag
      rw [Flag.spellings, List.mem_singleton] at spelled
      exact silent (spelled ▸ List.mem_cons_self)
    have silent : "--debug" ∉ flag.after rest := fun h =>
      silent (List.mem_cons_of_mem arg (flag.after_subset rest h))
    rw [take, hflag, take, hflag]
    dsimp only
    rw [set_debugging debug c other]
    cases c.set flag arg rest with
    | error misuse => rfl
    | ok c => exact ih c silent
  | case3 c arg rest hflag ih =>
    have silent : "--debug" ∉ rest := fun h => silent (List.mem_cons_of_mem arg h)
    rw [take, hflag, take, hflag]
    dsimp only
    rw [setProject_debugging]
    cases c.setProject arg with
    | error misuse => rfl
    | ok c => exact ih c silent

end Config

variable {environment environment' : List (String × String)} {args : List String}

/-- Environments that differ in nothing but the setting for debugging make the command line ask for the
same, but for debugging. -/
theorem parse_debugging
    (setting : ∀ name, name ≠ "DEBUG" → environment.lookup name = environment'.lookup name)
    (silent : "--debug" ∉ args) (directory : Path) :
    parse environment directory args =
      (parse environment' directory args).map
        (Config.debugging (environment.lookup "DEBUG" == some "true")) := by
  have initial : Config.initial environment =
      (Config.initial environment').debugging (environment.lookup "DEBUG" == some "true") := by
    rw [Config.initial, setting "PHPSTAN_BINARY" (by decide)]
    rfl
  unfold parse
  rw [initial, Config.take_debugging _ _ silent]
  cases (Config.initial environment').take args with
  | error misuse => rfl
  | ok c =>
    change (if c.projectPath = "" then throw Misuse.noProject else _ : Except Misuse Config) =
      Except.map _ (if c.projectPath = "" then throw Misuse.noProject else _)
    split <;> rfl

end CommandLine

namespace Event

/-- What is left of a record without the lines that are there for debugging. -/
def plain (es : List Event) : List Event := es.filter (!·.isForDebugging)

theorem plain_append (es es' : List Event) : plain (es ++ es') = plain es ++ plain es' :=
  List.filter_append ..

theorem plain_of_forDebugging {e : Event} (h : e.isForDebugging = true) : plain [e] = [] := by
  simp [plain, h]

theorem plain_of_not_forDebugging {e : Event} (h : e.isForDebugging = false) : plain [e] = [e] := by
  simp [plain, h]

end Event

namespace World

open Event (plain)

/-- The world with another value, or none, for one of its settings. -/
def withSetting (name : String) (value? : Option String) (w : World) : World :=
  { w with environment := (value?.map (name, ·)).toList ++ w.environment.filter (·.1 != name) }

theorem lookup_filter_ne (environment : List (String × String)) (name other : String) :
    (environment.filter (·.1 != name)).lookup other =
      if other = name then none else environment.lookup other := by
  induction environment with
  | nil => simp
  | cons setting environment ih => grind

theorem setting?_withSetting (name other : String) (value? : Option String) (w : World) :
    (w.withSetting name value?).setting? other =
      if other = name then value? else w.setting? other := by
  change List.lookup other ((value?.map (name, ·)).toList ++ _) = _
  rw [List.lookup_append, lookup_filter_ne]
  cases value? with
  | none => rfl
  | some value =>
    by_cases same : other = name
    · simp [same]
    · simp [same, List.lookup_cons, setting?, beq_false_of_ne same]

theorem twins_withSetting (value? value'? : Option String) (w : World) :
    Twins (w.withSetting "DEBUG" value?) (w.withSetting "DEBUG" value'?) where
  tree := rfl
  directory := rfl
  setting name other := by
    rw [setting?_withSetting, if_neg other, setting?_withSetting, if_neg other]
  exits := rfl
  replies := rfl
  cache := rfl

/-- Since `w`, the same was done in `x` and `y`, but that `y` is silent about what there is for
debugging. -/
structure Muted (w x y : World) : Prop extends Twins x y where
  off : y.debug = false
  trace : ∃ es, x.trace = w.trace ++ es ∧ y.trace = w.trace ++ plain es

variable {w x y : World}

theorem Muted.concat (h : Muted w x y) {e : Event} (he : e.isForDebugging = false) :
    ∃ es, x.trace ++ [e] = w.trace ++ es ∧ y.trace ++ [e] = w.trace ++ plain es := by
  obtain ⟨es, loud, quiet⟩ := h.trace
  refine ⟨es ++ [e], by rw [loud, List.append_assoc], ?_⟩
  rw [quiet, List.append_assoc, Event.plain_append, Event.plain_of_not_forDebugging he]

theorem Muted.noted (h : Muted w x y) {e : Event} (he : e.isForDebugging = true) :
    Muted w (x.noted e) (y.noted e) where
  toTwins := h.toTwins.told _ _
  off := h.off
  trace := by
    obtain ⟨es, loud, quiet⟩ := h.trace
    unfold World.noted
    rw [h.off, loud]
    split
    · refine ⟨es ++ [e], List.append_assoc .., ?_⟩
      rw [Event.plain_append, Event.plain_of_forDebugging he, List.append_nil]
      exact quiet
    · exact ⟨es, rfl, quiet⟩

instance : Lockstep (Muted w) where
  twins h := h.toTwins
  record _ _ he h := ⟨h.toTwins.told _ _, h.off, h.concat he⟩
  noted he h := h.noted he
  store cache _ _ h := ⟨Alike.store cache h.toTwins, h.off, h.trace⟩
  launch l _ _ h := ⟨(h.toTwins.launch l).1, (h.toTwins.launch l).2, h.off, h.concat rfl⟩
  ask q _ _ h := ⟨(h.toTwins.ask q).1, (h.toTwins.ask q).2, h.off, h.concat rfl⟩
  put tree _ _ h := ⟨Lockstep.put tree h.toTwins, h.off, h.trace⟩

end World

namespace Run

open World CommandLine

section Lockstep

variable {R : World → World → Prop} [Lockstep R] {x y : World}

theorem agree_dryRun (session : Session) {crew crew' : Crew World} (h : crew.Agrees R crew') :
    Agree R (dryRun session crew) (dryRun session crew') := by
  refine (agree_say _ _).bind fun _ => (session.agree_analyze h).bind fun found => ?_
  cases found with
  | error f => exact agree_pure _
  | ok snapshot =>
    refine Agree.ite ((agree_say _ _).bind fun _ => agree_pure _) ?_
    exact (agree_say _ _).bind fun _ => (agree_say _ _).bind fun _ =>
      (agree_say _ _).bind fun _ => agree_pure _

theorem agree_writeStats (file : String) (stats : Stats) :
    Agree R (writeStats file stats) (writeStats file stats) := by
  refine agree_get_bind fun x y h => ?_
  have same := Alike.twins h
  dsimp only
  rw [same.resolve_eq, same.tree]
  cases y.tree.writeText (y.resolve file) stats.toJson.toText.toList with
  | error fault => exact agree_pure _
  | ok tree =>
    exact (agree_set (Lockstep.put tree h)).bind fun _ => (agree_say _ _).bind fun _ => agree_pure _

theorem agree_fullRun (c : Config) (session : Session) {crew crew' : Crew World}
    (h : crew.Agrees R crew') : Agree R (fullRun c session crew) (fullRun c session crew') := by
  refine (agree_say _ _).bind fun _ => (session.agree_run h _).bind fun ended => ?_
  cases ended with
  | error f => exact agree_pure _
  | ok report =>
    refine (agree_say _ _).bind fun _ => (agree_say _ _).bind fun _ => ?_
    dsimp only
    split
    · exact agree_pure _
    · exact (agree_writeStats _ _).bind fun _ => agree_pure _

theorem prepare_congr (c : Config) (h : Twins x y) : prepare c x = prepare c y := by
  simp only [prepare, Analyzer.ofProject, Session.ofSettings, h.resolve_eq, h.tree]

def proceed (c : Config) : Act (Except Failure Nat) := do
  match prepare c (← get) with
  | .error f => return .error f
  | .ok (session, crew) => if c.dryRun then dryRun session crew else fullRun c session crew

def shown (c : Config) : Event := .console .log [.text "Configuration:", .value c.toJson] true

def configured (c : Config) (w : World) : World := { w with debug := c.debug }.noted (shown c)

theorem run_perform (c : Config) (w : World) : (perform c).run w = (proceed c).run (configured c w) := by
  have parts : perform c = (do
      modify fun w => { w with debug := c.debug }
      printDebug .log [.text "Configuration:", .value c.toJson]
      proceed c) := rfl
  rw [parts, run_bind, run_bind, run_printDebug]
  rfl

/-- From here on, a configuration is not asked for debugging any more. -/
theorem agree_proceed (debug : Bool) (c : Config) :
    Agree R (proceed (c.debugging debug)) (proceed c) := by
  refine agree_get_bind fun x y h => ?_
  rw [show prepare (c.debugging debug) x = prepare c x from rfl, prepare_congr c (Alike.twins h)]
  cases hp : prepare c y with
  | error f => exact agree_pure _
  | ok prepared =>
    obtain ⟨session, crew⟩ := prepared
    obtain ⟨analyzer, oracle, rfl⟩ := of_prepare_eq_ok hp
    have crew := Crew.agrees_ofWorld (R := R) analyzer oracle (c.root y.directory)
    exact (agree_dryRun session crew).ite (agree_fullRun c session crew)

theorem agree_leave (result : Except Failure Nat) : Agree R (leave result) (leave result) := by
  cases result with
  | ok code => exact agree_pure _
  | error f => exact (agree_print _ _).bind fun _ => agree_pure _

end Lockstep

section Start

variable {args : List String} {w : World}

/-- Two runs that differ in nothing but debugging come to the same, and what the one without it did is what
is left of the other when the lines for debugging are left out. -/
structure Observes (w : World) (loud quiet : Nat × World) : Prop where
  code : loud.1 = quiet.1
  tree : loud.2.tree = quiet.2.tree
  trace : ∃ es, loud.2.trace = w.trace ++ es ∧ quiet.2.trace = w.trace ++ Event.plain es

def refusal (misuse : Misuse) : List Event :=
  [.console .error [.text misuse.message] false, .console .error [.text usage] false, .exit 1]

theorem trace_refuse (misuse : Misuse) (w : World) :
    ((refuse misuse).run w).2.trace = w.trace ++ refusal misuse := by
  change w.trace ++ [_] ++ [_] ++ [_] = _
  rw [List.append_assoc, List.append_assoc]
  rfl

theorem plain_refusal (misuse : Misuse) : Event.plain (refusal misuse) = refusal misuse :=
  List.filter_eq_self.2 (by simp [refusal, Event.isForDebugging])

theorem run_start_of_parse_ok {c : Config} (h : parse w.environment w.directory args = .ok c) :
    (start args).run w = (proceed c >>= leave).run (configured c w) := by
  rw [start_of_parse_ok h, run_bind, run_perform, run_bind]

theorem muted_configured {x y : World} (twins : Twins x y) (loud : x.trace = w.trace)
    (quiet : y.trace = w.trace) {c : Config} (off : c.debug = false) :
    Muted w (configured (c.debugging true) x) (configured c y) where
  tree := twins.tree
  directory := twins.directory
  setting := twins.setting
  exits := twins.exits
  replies := twins.replies
  cache := twins.cache
  off := off
  trace := by
    refine ⟨[shown (c.debugging true)], ?_, ?_⟩
    · rw [← loud]
      rfl
    · rw [Event.plain_of_forDebugging rfl, List.append_nil, ← quiet]
      exact if_neg (by rw [off]; exact Bool.false_ne_true)

/-- Debugging observes a run that the command line does not ask for it. -/
theorem start_observes (silent : "--debug" ∉ args) (w : World) :
    Observes w ((start args).run (w.withSetting "DEBUG" (some "true")))
      ((start args).run (w.withSetting "DEBUG" none)) := by
  have twins := twins_withSetting (some "true") none w
  have loud := parse_debugging twins.setting silent w.directory
  have quiet := parse_debugging (twins_refl (w.withSetting "DEBUG" none)).setting silent w.directory
  rw [show List.lookup "DEBUG" (w.withSetting "DEBUG" (some "true")).environment = some "true" from
    (setting?_withSetting "DEBUG" "DEBUG" _ w).trans (if_pos rfl)] at loud
  rw [show List.lookup "DEBUG" (w.withSetting "DEBUG" none).environment = none from
    (setting?_withSetting "DEBUG" "DEBUG" _ w).trans (if_pos rfl)] at quiet
  cases h : parse (w.withSetting "DEBUG" none).environment w.directory args with
  | error misuse =>
    rw [h] at loud
    rw [run_start_of_parse_error (w := w.withSetting "DEBUG" (some "true")) loud,
      run_start_of_parse_error (w := w.withSetting "DEBUG" none) h]
    refine ⟨rfl, rfl, refusal misuse, trace_refuse misuse (w.withSetting "DEBUG" (some "true")), ?_⟩
    rw [plain_refusal]
    exact trace_refuse misuse (w.withSetting "DEBUG" none)
  | ok c =>
    rw [h] at loud quiet
    have off : c.debug = false := congrArg Config.debug (Except.ok.inj quiet)
    rw [run_start_of_parse_ok (w := w.withSetting "DEBUG" (some "true")) loud,
      run_start_of_parse_ok (w := w.withSetting "DEBUG" none) h]
    have same := ((agree_proceed true c).bind agree_leave) _ _ (muted_configured twins rfl rfl off)
    exact ⟨same.1, same.2.tree, same.2.trace⟩

end Start

end Run

namespace Overheard

/-! A project with one finding, which the model mends. -/

def report : String :=
  "\n".intercalate [
    " ------ ------ ",
    "  Line   a.php ",
    " ------ ------ ",
    "  1      one ",
    " ------ ------ "]

def answer : String :=
  "<fixes><fix><file>a.php</file><line>1</line><original>one</original><fixed>1</fixed></fix></fixes>"

def world : World where
  tree :=
    ⟨[(["p".toList, "vendor".toList, "bin".toList, "phpstan".toList], .file ⟨[], true, true⟩),
      (["p".toList, "a.php".toList], .file ⟨Text.encode "one".toList, true, true⟩)]⟩
  directory := []
  environment := [("MODEL_PROVIDER", "ollama"), ("MODEL_NAME", "m")]
  debug := false
  exits := ⟨⟨none, none, none, none⟩,
    [⟨some 1, some report, none, none⟩, ⟨some 0, none, none, none⟩]⟩
  replies := ⟨.ok answer, []⟩
  cache := .empty
  trace := []

/-- A run for that project says more with debugging, and nothing else is different. -/
theorem observes : "--debug" ∉ ["/p"] ∧
    Run.Observes world ((Run.start ["/p"]).run (world.withSetting "DEBUG" (some "true")))
      ((Run.start ["/p"]).run (world.withSetting "DEBUG" none)) ∧
    ((Run.start ["/p"]).run (world.withSetting "DEBUG" (some "true"))).2.trace.any Event.isForDebugging =
      true := by
  refine ⟨by decide, Run.start_observes (by decide) world, ?_⟩
  decide +kernel

end Overheard
end Mender
