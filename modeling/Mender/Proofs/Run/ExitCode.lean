import Mender.Proofs.Run.Confinement
import Mender.Proofs.Run.DryRun
import Mender.Proofs.Session.Convergence

/-! What an exit code of zero says about the project. A session that is worked through ends with it only
if the last program that was launched for an analysis ended with zero itself. A dry run looks at the
diagnostics alone, so it also ends with it if the program failed and nothing could be read of its output. -/

namespace Mender

open World CommandLine

namespace Run

section FullRun

variable {w w' : World} {c : Config}

def report (c : Config) (r : RunReport) : Act (Except Failure Nat) := do
  say .log ("\n" ++ (if r.success then "✅" else "⚠️") ++ " " ++ r.reason)
  say .log r.stats.toText
  let code := if r.success then 0 else 1
  match c.statsFile.filter (· != "") with
  | none => return .ok code
  | some file => return (← writeStats file r.stats).map fun _ => code

theorem fullRun_eq (c : Config) (s : Session) (crew : Crew World) : fullRun c s crew = (do
    say .log ("🔧 Fixing PHPStan errors in " ++ c.projectPath)
    match ← s.run crew .zero with
    | .error f => return .error f
    | .ok r => report c r) := rfl

theorem keeps_writeStats_launched {ls : List Launch} (file : String) (stats : Stats) :
    Keeps (Launched w ls) (writeStats file stats) := by
  intro w' launched
  simp only [writeStats, StateT.run_bind, StateT.run_get, pure_bind]
  cases w'.tree.writeText (w'.resolve file) stats.toJson.toText.toList with
  | error fault => exact launched
  | ok tree => exact keeps_say .log _ { w' with tree } ⟨launched.exits, launched.launches⟩

theorem keeps_report {ls : List Launch} (r : RunReport) : Keeps (Launched w ls) (report c r) := by
  refine (keeps_say _ _).bind fun _ => (keeps_say _ _).bind fun _ => ?_
  dsimp only
  split
  · exact keeps_pure _
  · exact (keeps_writeStats_launched _ _).bind fun _ => keeps_pure _

theorem success_of_report {r : RunReport} (h : ((report c r).run w).1 = .ok 0) : r.success = true := by
  by_contra failure
  simp only [report, StateT.run_bind, if_neg failure] at h
  cases hfile : c.statsFile.filter (· != "") with
  | none =>
    rw [hfile] at h
    cases h
  | some file =>
    rw [hfile] at h
    change Except.map (fun _ => 1) ((writeStats file r.stats).run _).1 = .ok 0 at h
    generalize ((writeStats file r.stats).run _).1 = written at h
    cases written <;> cases h

/-- The last program launched on the way from `w` to `w'` was one for an analysis, and ended with zero. -/
def LastPassed (w w' : World) : Prop :=
  ∃ p, (w.processes w').getLast? = some p ∧ p.launch.arguments.head? = some "analyse" ∧
    p.exit.status = some 0

theorem lastPassed_of_fullRun (s : Session) (a : Analyzer) (o : Oracle) (root : Path)
    (launched : Launched w [] w') (h : ((fullRun c s (.ofWorld a o root)).run w').1 = .ok 0) :
    LastPassed w ((fullRun c s (.ofWorld a o root)).run w').2 := by
  have launched := keeps_say (I := Launched w []) .log ("🔧 Fixing PHPStan errors in " ++ c.projectPath) w'
    launched
  rw [fullRun_eq, run_bind, run_bind] at h ⊢
  generalize ((say .log ("🔧 Fixing PHPStan errors in " ++ c.projectPath)).run w').2 = w₁ at *
  cases answer : ((s.run (.ofWorld a o root) .zero).run w₁).1 with
  | error f =>
    rw [answer] at h
    cases h
  | ok r =>
    rw [answer] at h
    obtain ⟨ls, p, analysis, ran, last, gives, passing⟩ :=
      Session.exists_process_of_success answer (success_of_report h)
    have told := keeps_report (c := c) r _ (launched.trans ran)
    rw [← gives.analysis_eq, Analyzer.exitCode_analysisOf_eq_zero_iff] at passing
    rw [launched.ended_eq] at last
    exact ⟨p, told.processes_eq ▸ last, gives.analyse, passing⟩

end FullRun

section Start

variable {args : List String} {w : World} {c : Config}

def processesOf (args : List String) (w : World) : List Process := w.processes ((start args).run w).2

/-- What an exit code of zero is taken for. -/
structure ZeroTrusted (args : List String) (w : World) : Prop where
  /-- The last program was launched for an analysis, and ended with zero itself. -/
  passed : ((start args).run w).1 = 0 → ∃ p, (processesOf args w).getLast? = some p ∧
    p.launch.arguments.head? = some "analyse" ∧ p.exit.status = some 0
  /-- A dry run ends with zero, or says that there are no errors, only where a session would converge. -/
  converges : ∀ c, parse w.environment w.directory args = .ok c → c.dryRun = true →
    ((start args).run w).1 = 0 ∨ ¬ Unsaid w ((start args).run w).2 →
      ∃ p, (processesOf args w).getLast? = some p ∧
        ∀ s : Session, s.Converges (Analyzer.analysisOf p.exit)

/-- The analyzer failed in a dry run, and nothing can be read of its output. -/
def Overlooked (args : List String) (w : World) : Prop :=
  ∃ c p, parse w.environment w.directory args = .ok c ∧ c.dryRun = true ∧
    (processesOf args w).getLast? = some p ∧ p.exit.fault = none ∧ p.exit.status ≠ some 0 ∧
    parseReport (Analyzer.analysisOf p.exit).output = []

def leave : Except Failure Nat → Act Nat
  | .ok code => return code
  | .error f => do
    World.print .error [.text "Fatal error:", .failure f]
    return 1

theorem run_start_of_parse_error {misuse : Misuse}
    (h : parse w.environment w.directory args = .error misuse) :
    (start args).run w = (1, ((refuse misuse).run w).2) := by
  have refused : (configure args).run w = (none, ((refuse misuse).run w).2) := by
    simp only [configure, StateT.run_bind, StateT.run_get, pure_bind, h]
    rfl
  rw [start, StateT.run_bind, refused]
  rfl

theorem start_of_parse_error {misuse : Misuse}
    (h : parse w.environment w.directory args = .error misuse) : ((start args).run w).1 = 1 := by
  rw [run_start_of_parse_error h]

theorem start_of_parse_ok (h : parse w.environment w.directory args = .ok c) :
    (start args).run w = (perform c >>= leave).run w := by
  have read : (configure args).run w = (some c, w) := by
    simp only [configure, StateT.run_bind, StateT.run_get, pure_bind, h]
    rfl
  have same : (do
      match ← perform c with
      | .ok code => return code
      | .error f => do
        World.print .error [.text "Fatal error:", .failure f]
        return 1 : Act Nat) = perform c >>= leave :=
    bind_congr fun answer => by cases answer <;> rfl
  rw [start, StateT.run_bind, read]
  exact congrArg (fun act => StateT.run act w) same

/-- Before the work starts, no program is launched and nothing is said of the project. -/
theorem perform_eq (c : Config) (w : World) :
    ∃ w', Launched w [] w' ∧ Unsaid w w' ∧
      (perform c).run w = (match prepare c w' with
        | .error f => return .error f
        | .ok (s, crew) => if c.dryRun then dryRun s crew else fullRun c s crew : Act _).run w' := by
  have start : Launched w [] { w with debug := c.debug } ∧ Unsaid w { w with debug := c.debug } :=
    ⟨⟨rfl, (List.append_nil _).symm⟩, unsaid_refl w⟩
  refine ⟨((World.printDebug .log [.text "Configuration:", .value c.toJson]).run
    { w with debug := c.debug }).2, ?_, ?_, ?_⟩
  · exact keeps_printDebug _ _ _ start.1
  · exact keeps_printDebug_unsaid _ _ _ start.2
  · rfl

theorem dryEnd_perform (dry : c.dryRun = true) :
    DryEnd w ((perform c).run w).1 ((perform c).run w).2 := by
  obtain ⟨w', launched, unsaid, same⟩ := perform_eq c w
  rw [same]
  cases h : prepare c w' with
  | error f => exact .of_launched unsaid launched fun p hp => by cases hp
  | ok prepared =>
    obtain ⟨s, crew⟩ := prepared
    obtain ⟨a, o, rfl⟩ := of_prepare_eq_ok h
    dsimp only
    rw [if_pos dry]
    exact dryEnd_dryRun s a o _ unsaid launched

theorem lastPassed_of_perform (full : c.dryRun = false) (h : ((perform c).run w).1 = .ok 0) :
    LastPassed w ((perform c).run w).2 := by
  obtain ⟨w', launched, -, same⟩ := perform_eq c w
  rw [same] at h ⊢
  cases hp : prepare c w' with
  | error f =>
    rw [hp] at h
    cases h
  | ok prepared =>
    obtain ⟨s, crew⟩ := prepared
    obtain ⟨a, o, rfl⟩ := of_prepare_eq_ok hp
    rw [hp] at h
    dsimp only at h ⊢
    rw [if_neg (by rw [full]; exact Bool.false_ne_true)] at h ⊢
    exact lastPassed_of_fullRun s a o _ launched h

/-- What a dry run says, and the code it ends with, told by its last program. -/
structure Presented (args : List String) (w : World) : Prop where
  of_zero : ((start args).run w).1 = 0 → ∃ p, (processesOf args w).getLast? = some p ∧
    p.launch.arguments.head? = some "analyse" ∧ p.exit.fault = none ∧ Blank (Analyzer.analysisOf p.exit)
  unsaid : ((start args).run w).1 ≠ 0 → Unsaid w ((start args).run w).2
  to_zero : ∀ p, (processesOf args w).getLast? = some p → p.exit.fault = none →
    Blank (Analyzer.analysisOf p.exit) → ((start args).run w).1 = 0

theorem presented_of_dryRun (h : parse w.environment w.directory args = .ok c) (dry : c.dryRun = true) :
    Presented args w := by
  have ended := dryEnd_perform (w := w) dry
  have started := start_of_parse_ok h
  rcases hr : (perform c).run w with ⟨result, w'⟩
  rw [StateT.run_bind, hr] at started
  rw [hr] at ended
  dsimp only at ended
  cases ended with
  | @failed f _ unsaid unlaunched =>
    have code : ((start args).run w).1 = 1 := by rw [started]; rfl
    have world : ((start args).run w).2 =
        ((World.print .error [.text "Fatal error:", .failure f]).run w').2 := by rw [started]; rfl
    have processes : processesOf args w = w.processes w' := by
      rw [processesOf, world, processes_print]
    refine ⟨fun zero => ?_, fun _ => ?_, fun p last fault _ => ?_⟩
    · rw [code] at zero
      cases zero
    · rw [world]
      exact keeps_record_unsaid (fun same => by cases same) w' unsaid
    · rw [processes] at last
      exact absurd fault (unlaunched p last)
  | @blank _ p analysis last gives blank =>
    have code : ((start args).run w).1 = 0 := by rw [started]; rfl
    have world : ((start args).run w).2 = w' := by rw [started]; rfl
    have processes : processesOf args w = w.processes w' := by rw [processesOf, world]
    refine ⟨fun _ => ?_, fun other => absurd code other, fun _ _ _ _ => code⟩
    exact ⟨p, processes ▸ last, gives.analyse, gives.launched, gives.analysis_eq ▸ blank⟩
  | @found _ p analysis last gives found unsaid =>
    have code : ((start args).run w).1 = 1 := by rw [started]; rfl
    have world : ((start args).run w).2 = w' := by rw [started]; rfl
    refine ⟨fun zero => ?_, fun _ => world ▸ unsaid, fun p' last' _ blank => ?_⟩
    · rw [code] at zero
      cases zero
    · rw [processesOf, world, last, Option.some.injEq] at last'
      subst last'
      exact absurd (gives.analysis_eq ▸ blank) found

theorem lastPassed_of_start (h : parse w.environment w.directory args = .ok c) (full : c.dryRun = false)
    (zero : ((start args).run w).1 = 0) : LastPassed w ((start args).run w).2 := by
  rw [start_of_parse_ok h, run_bind] at zero ⊢
  cases answer : ((perform c).run w).1 with
  | error f =>
    rw [answer] at zero
    cases zero
  | ok code =>
    rw [answer] at zero
    obtain rfl : code = 0 := zero
    exact lastPassed_of_perform full answer

/-- An exit code of zero, and what a dry run says, can be trusted unless a dry run overlooked that the
analyzer failed. -/
theorem zeroTrusted_iff (args : List String) (w : World) : ZeroTrusted args w ↔ ¬ Overlooked args w := by
  constructor
  · rintro trusted ⟨c, p, h, dry, last, fault, failing, unread⟩
    have zero := (presented_of_dryRun h dry).to_zero p last fault (.inr unread)
    obtain ⟨p', last', -, passing⟩ := trusted.passed zero
    rw [last, Option.some.injEq] at last'
    subst last'
    exact failing passing
  · intro overlooked
    have passing {c : Config} (h : parse w.environment w.directory args = .ok c) (dry : c.dryRun = true)
        {p : Process} (last : (processesOf args w).getLast? = some p) (fault : p.exit.fault = none)
        (blank : Blank (Analyzer.analysisOf p.exit)) : (Analyzer.analysisOf p.exit).exitCode = 0 := by
      refine blank.elim id fun unread => ?_
      by_contra failing
      rw [Analyzer.exitCode_analysisOf_eq_zero_iff] at failing
      exact overlooked ⟨c, p, h, dry, last, fault, failing, unread⟩
    constructor
    · intro zero
      cases h : parse w.environment w.directory args with
      | error misuse =>
        rw [start_of_parse_error h] at zero
        cases zero
      | ok c =>
        cases dry : c.dryRun with
        | true =>
          obtain ⟨p, last, analyse, fault, blank⟩ := (presented_of_dryRun h dry).of_zero zero
          exact ⟨p, last, analyse,
            Analyzer.exitCode_analysisOf_eq_zero_iff.1 (passing h dry last fault blank)⟩
        | false => exact lastPassed_of_start h dry zero
    · intro c h dry zero
      have presented := presented_of_dryRun h dry
      have zero : ((start args).run w).1 = 0 := by
        by_contra other
        exact zero.elim other fun said => said (presented.unsaid other)
      obtain ⟨p, last, -, fault, blank⟩ := presented.of_zero zero
      exact ⟨p, last, fun s => Session.converges_iff.2 (passing h dry last fault blank)⟩

end Start

end Run

namespace Crashed

/-- A project whose analyzer runs out of memory. -/
def world : World where
  tree := ⟨[(Path.resolve [] "/p/vendor/bin/phpstan".toList, .file ⟨[], true, true⟩)]⟩
  directory := []
  environment := []
  debug := false
  exits := ⟨⟨some (.ofNat 255), some "PHP Fatal error:  Allowed memory size exhausted", some "", none⟩, []⟩
  replies := ⟨.ok "", []⟩
  cache := .empty
  trace := []

theorem code_eq : ((Run.start ["/p", "--dry-run"]).run world).1 = 0 := by decide +kernel

theorem statuses_eq :
    (Run.processesOf ["/p", "--dry-run"] world).map (·.exit.status) = [some (.ofNat 255)] := by
  decide +kernel

/-- A dry run over that project ends with zero. -/
theorem not_zeroTrusted : ¬ Run.ZeroTrusted ["/p", "--dry-run"] world := by
  intro trusted
  obtain ⟨p, last, -, passing⟩ := trusted.passed code_eq
  have status : p.exit.status = some (.ofNat 255) := by
    have mem := List.mem_map_of_mem (f := (·.exit.status)) (List.mem_of_getLast? last)
    rw [statuses_eq] at mem
    exact List.mem_singleton.1 mem
  rw [status] at passing
  exact absurd passing (by decide +kernel)

end Crashed
end Mender
