import Mender.Proofs.Fix.Applicator
import Mender.Proofs.Retry
import Mender.Proofs.Session.Agreement
import Mender.Run

/-! Worlds that a run cannot tell apart. A run looks at the files, at its settings, at the answers that
are to come and at the store of models, and nowhere does it look at what was said. So from worlds in which
all that is the same, each step answers alike. -/

namespace Mender

namespace Event

def launch? : Event → Option Launch
  | .launch l => some l
  | _ => none

def question? : Event → Option Question
  | .ask q => some q
  | _ => none

end Event

namespace World

def noted (e : Event) (w : World) : World :=
  { w with trace := if w.debug then w.trace ++ [e] else w.trace }

/-- Worlds that differ in nothing but what was said in them, and whether there is debugging. -/
structure Twins (x y : World) : Prop where
  tree : x.tree = y.tree
  directory : x.directory = y.directory
  setting : ∀ name, name ≠ "DEBUG" → x.setting? name = y.setting? name
  exits : x.exits = y.exits
  replies : x.replies = y.replies
  cache : x.cache = y.cache

theorem twins_refl (x : World) : Twins x x := ⟨rfl, rfl, fun _ _ => rfl, rfl, rfl, rfl⟩

theorem equivalence_twins : Equivalence Twins where
  refl := twins_refl
  symm h :=
    ⟨h.tree.symm, h.directory.symm, fun name other => (h.setting name other).symm, h.exits.symm,
      h.replies.symm, h.cache.symm⟩
  trans h h' :=
    ⟨h.tree.trans h'.tree, h.directory.trans h'.directory,
      fun name other => (h.setting name other).trans (h'.setting name other), h.exits.trans h'.exits,
      h.replies.trans h'.replies, h.cache.trans h'.cache⟩

/-- A relation between twins that lasts while a run talks, pauses and makes models. -/
class Alike (R : World → World → Prop) : Prop where
  twins : ∀ {x y}, R x y → Twins x y
  record : ∀ {e : Event} {x y}, e.launch? = none → e.question? = none → e.isForDebugging = false →
    R x y → R { x with trace := x.trace ++ [e] } { y with trace := y.trace ++ [e] }
  noted : ∀ {e : Event} {x y}, e.isForDebugging = true → R x y → R (x.noted e) (y.noted e)
  store : ∀ (cache : ModelCache) {x y}, R x y → R { x with cache } { y with cache }

/-- A relation between twins that lasts whatever a run does. -/
class Lockstep (R : World → World → Prop) : Prop extends Alike R where
  launch : ∀ l, Agree R (launch l) (launch l)
  ask : ∀ q, Agree R (ask q) (ask q)
  put : ∀ (tree : Tree) {x y}, R x y → R { x with tree } { y with tree }

variable {R : World → World → Prop} [Alike R] {x y : World}

theorem run_printDebug (channel : Channel) (pieces : List Piece) (w : World) :
    (printDebug channel pieces).run w = ((), w.noted (.console channel pieces true)) := by
  unfold printDebug noted
  simp only [StateT.run_bind, StateT.run_get, pure_bind]
  split <;> rfl

/-- The switch is asked twice, and answers the same. -/
theorem showDebug_eq (label : String) (value : Json) :
    showDebug label value = sayDebug .log (label ++ ":\n" ++ value.toText) := by
  refine StateT.ext fun w => ?_
  simp only [showDebug, StateT.run_bind, StateT.run_get, pure_bind]
  split
  case isTrue => rfl
  case isFalse h => rw [sayDebug, run_printDebug, noted, if_neg h]; rfl

theorem agree_record {e : Event} (noLaunch : e.launch? = none) (noQuestion : e.question? = none)
    (plain : e.isForDebugging = false) : Agree R (record e) (record e) :=
  fun _ _ h => ⟨rfl, Alike.record noLaunch noQuestion plain h⟩

theorem agree_print (channel : Channel) (pieces : List Piece) :
    Agree R (print channel pieces) (print channel pieces) := agree_record rfl rfl rfl

theorem agree_say (channel : Channel) (s : String) : Agree R (say channel s) (say channel s) :=
  agree_print _ _

theorem agree_printDebug (channel : Channel) (pieces : List Piece) :
    Agree R (printDebug channel pieces) (printDebug channel pieces) := by
  intro x y h
  rw [run_printDebug, run_printDebug]
  exact ⟨rfl, Alike.noted rfl h⟩

theorem agree_sayDebug (channel : Channel) (s : String) :
    Agree R (sayDebug channel s) (sayDebug channel s) := agree_printDebug _ _

theorem agree_showDebug (label : String) (value : Json) :
    Agree R (showDebug label value) (showDebug label value) := by
  rw [showDebug_eq]
  exact agree_sayDebug _ _

theorem agree_sleep (duration : Number) : Agree R (sleep duration) (sleep duration) :=
  agree_record rfl rfl rfl

theorem readFile_congr (h : x.tree = y.tree) (p : Path) (shown : String) :
    x.readFile p shown = y.readFile p shown := by
  rw [readFile, h, readFile]

theorem agree_content? (root : Path) (file : String) :
    Agree R (content? root file) (content? root file) := by
  refine agree_get_bind fun x y h => ?_
  dsimp only
  rw [readFile_congr (Alike.twins h).tree, (Alike.twins h).tree]
  split
  case isTrue =>
    split
    · exact agree_pure _
    · exact (agree_say _ _).bind fun _ => agree_pure _
  case isFalse => exact (agree_sayDebug _ _).bind fun _ => agree_pure _

theorem agree_contents (root : Path) (files : List String) :
    Agree R (contents root files) (contents root files) :=
  (Agree.mapM (agree_content? root) files).bind fun _ => agree_pure _

end World

open World

variable {R : World → World → Prop} [Alike R]

theorem Prompt.agree_systemFor (projectPath : String) :
    Agree R (systemFor projectPath) (systemFor projectPath) := by
  refine agree_get_bind fun x y h => ?_
  dsimp only
  simp only [readFile_congr (Alike.twins h).tree, (Alike.twins h).tree, (Alike.twins h).directory]
  split
  · exact agree_pure _
  · split
    · exact agree_pure _
    · exact (agree_say _ _).bind fun _ => agree_pure _

theorem Analyzer.agree_run (launch : ∀ l, Agree R (World.launch l) (World.launch l)) (a : Analyzer)
    (options? : Option AnalysisOptions) : Agree R (a.run options?) (a.run options?) := by
  refine agree_get_bind fun x y h => ?_
  rw [show a.isInstalled x = a.isInstalled y by
    rw [isInstalled, (Alike.twins h).tree, (Alike.twins h).directory, isInstalled]]
  refine Agree.ite ?_ (agree_pure _)
  refine (agree_sayDebug _ _).bind fun _ => (launch _).bind fun exit => ?_
  cases exit.fault <;> exact agree_pure _

namespace ModelConfig

/-- Which model is named does not depend on whether there is debugging. -/
theorem ofEnvironment_congr {environment environment' : List (String × String)}
    (h : ∀ name, name ≠ "DEBUG" → environment.lookup name = environment'.lookup name) :
    ofEnvironment environment = ofEnvironment environment' := by
  have given {name : String} (other : name ≠ "DEBUG") :
      given? environment name = given? environment' name := by
    rw [given?, h name other, given?]
  have key (p : Provider) : given? environment p.keySetting = given? environment' p.keySetting :=
    given (by cases p <;> decide)
  have address (p : Provider) :
      p.addressSetting?.bind (given? environment) = p.addressSetting?.bind (given? environment') := by
    cases p with
    | openaiCompatible => exact given (by decide)
    | ollama => exact given (by decide)
    | _ => rfl
  simp only [ofEnvironment, given (show "MODEL_PROVIDER" ≠ "DEBUG" by decide),
    given (show "MODEL_NAME" ≠ "DEBUG" by decide), key, address]

end ModelConfig

namespace Oracle

theorem agree_model (config : ModelConfig) : Agree R (model config) (model config) := by
  refine agree_get_bind fun x y h => ?_
  rw [(Alike.twins h).cache]
  split
  · exact agree_pure _
  · refine Agree.bind ?_ fun _ => agree_pure _
    exact fun _ _ h => ⟨rfl, Alike.store _ h⟩

theorem agree_ask (ask : ∀ q, Agree R (World.ask q) (World.ask q)) (o : Oracle) (config : ModelConfig)
    (projectPath prompt : String) :
    Agree R (o.ask config projectPath prompt) (o.ask config projectPath prompt) := by
  refine (agree_model config).bind fun made => ?_
  cases made with
  | error f => exact agree_pure _
  | ok m =>
    refine agree_get_bind fun x y h => ?_
    rw [(Alike.twins h).replies]
    refine Retry.agree_run ?_ (agree_sayDebug _) agree_sleep _ _
    exact (Prompt.agree_systemFor _).bind fun _ => ask _

theorem agree_readFixes (answer : List Char) : Agree R (readFixes answer) (readFixes answer) :=
  (Agree.forM (fun _ => agree_sayDebug _ _) _).bind fun _ => agree_pure _

theorem agree_consult (ask : ∀ q, Agree R (World.ask q) (World.ask q)) (o : Oracle) (r : Request) :
    Agree R (o.consult r) (o.consult r) := by
  refine agree_get_bind fun x y h => ?_
  rw [ModelConfig.ofEnvironment_congr (Alike.twins h).setting]
  split
  · exact agree_pure _
  split
  · exact agree_pure _
  refine (agree_showDebug _ _).bind fun _ => (agree_ask ask o _ _ _).bind fun answer => ?_
  cases answer with
  | error f => exact agree_pure _
  | ok answer =>
    exact (agree_readFixes _).bind fun _ => (agree_sayDebug _ _).bind fun _ =>
      (agree_showDebug _ _).bind fun _ => agree_pure _

end Oracle

namespace Fix

theorem agree_announce (outcome : Fix × Option Obstacle) :
    Agree R (announce outcome) (announce outcome) := by
  obtain ⟨f, obstacle?⟩ := outcome
  cases obstacle? with
  | none => exact agree_sayDebug _ _
  | some obstacle => exact agree_say _ _

/-- Worlds that are alike after the mended files were put in place are so when all is told. -/
theorem agree_apply {root : Path} {fs : List Fix}
    (put : ∀ x y, R x y →
      R { x with tree := applyAll root x.tree fs } { y with tree := applyAll root y.tree fs }) :
    Agree R (apply root fs) (apply root fs) := by
  intro x y h
  have told := (Agree.forM (agree_announce (R := R)) (outcomes root x.tree fs)).bind fun _ =>
    agree_pure (failures root x.tree fs)
  have after := put x y h
  rw [run_apply, run_apply]
  rw [← (Alike.twins h).tree] at after ⊢
  exact told _ _ after

end Fix

section Twins

theorem World.Twins.resolve_eq {x y : World} (h : Twins x y) (text : String) :
    x.resolve text = y.resolve text := by
  rw [resolve, h.directory, resolve]

theorem World.Twins.told {x y : World} (h : Twins x y) (es es' : List Event) :
    Twins { x with trace := es } { y with trace := es' } :=
  ⟨h.tree, h.directory, h.setting, h.exits, h.replies, h.cache⟩

theorem World.Twins.launch {x y : World} (h : Twins x y) (l : Launch) :
    ((World.launch l).run x).1 = ((World.launch l).run y).1 ∧
      Twins ((World.launch l).run x).2 ((World.launch l).run y).2 :=
  ⟨congrArg (fun s => s.take.1) h.exits, h.tree, h.directory, h.setting,
    congrArg (fun s => s.take.2) h.exits, h.replies, h.cache⟩

theorem World.Twins.ask {x y : World} (h : Twins x y) (q : Question) :
    ((World.ask q).run x).1 = ((World.ask q).run y).1 ∧
      Twins ((World.ask q).run x).2 ((World.ask q).run y).2 :=
  ⟨congrArg (fun s => s.take.1) h.replies, h.tree, h.directory, h.setting, h.exits,
    congrArg (fun s => s.take.2) h.replies, h.cache⟩

instance : Lockstep Twins where
  twins h := h
  record _ _ _ h := h.told _ _
  noted _ h := h.told _ _
  store _ _ _ h := ⟨h.tree, h.directory, h.setting, h.exits, h.replies, rfl⟩
  launch l _ _ h := h.launch l
  ask q _ _ h := h.ask q
  put _ _ _ h := ⟨rfl, h.directory, h.setting, h.exits, h.replies, h.cache⟩

end Twins

/-- A crew that works on the world itself does the same in worlds that stay twins. -/
theorem Crew.agrees_ofWorld {R : World → World → Prop} [Lockstep R] (analyzer : Analyzer)
    (oracle : Oracle) (root : Path) :
    (Crew.ofWorld analyzer oracle root).Agrees R (Crew.ofWorld analyzer oracle root) where
  analyze := analyzer.agree_run Lockstep.launch
  parse _ := agree_pure _
  contents := agree_contents root
  consult := oracle.agree_consult Lockstep.ask
  apply fs := by
    refine (Fix.agree_apply fun x y h => ?_).bind fun _ => agree_pure _
    rw [(Alike.twins h).tree]
    exact Lockstep.put _ h
  pause := agree_sleep
  say := agree_say

end Mender
