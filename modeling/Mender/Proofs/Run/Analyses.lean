import Mender.Proofs.CommandLine.Query
import Mender.Proofs.Run.ExitCode
import Mender.Proofs.Session.Asking

/-! The programs that a run launches. Each of them is the analyzer, asked for what the command line says: in
every iteration of a session, and in a dry run. -/

namespace Mender

open World CommandLine

namespace World

variable {w w' : World} {l : Launch}

/-- Since `w`, programs were launched in this one way only. -/
def OnlyLaunched (w : World) (l : Launch) (w' : World) : Prop := ∃ n, Launched w (List.replicate n l) w'

instance : Aside (OnlyLaunched w l) where
  record w' noLaunch noQuestion := by
    rintro ⟨n, launched⟩
    exact ⟨n, Aside.record w' noLaunch noQuestion launched⟩
  cache cache w' := by
    rintro ⟨n, launched⟩
    exact ⟨n, Aside.cache cache w' launched⟩

theorem OnlyLaunched.launch_eq (h : OnlyLaunched w l w') : ∀ p ∈ w.processes w', p.launch = l := by
  obtain ⟨n, launched⟩ := h
  intro p hp
  rw [launched.processes_eq, ended, List.mem_mapIdx] at hp
  obtain ⟨i, hi, rfl⟩ := hp
  exact List.getElem_replicate hi

/-- An analyzer that is asked one thing is launched in one way. -/
theorem keeps_asking (a : Analyzer) (o : Oracle) (root : Path) (options? : Option AnalysisOptions) :
    ((Crew.ofWorld a o root).asking options?).Keeps (OnlyLaunched w (a.analysing options?)) where
  analyze _ := by
    rintro w' ⟨n, launched⟩
    cases installed : a.isInstalled w' with
    | false =>
      refine ⟨n, ?_⟩
      change Launched w _ ((a.run options?).run w').2
      rw [a.run_of_not_installed installed options?]
      exact launched
    | true =>
      refine ⟨n + 1, ?_⟩
      rw [List.replicate_succ']
      exact (a.run_of_installed installed options? launched).2
  parse _ := keeps_pure _
  contents := keeps_contents root
  consult := o.keeps_consult fun q w' ⟨n, launched⟩ => ⟨n, keeps_ask_launched q w' launched⟩
  apply fixes :=
    (Fix.keeps_apply fun _ ⟨n, launched⟩ => ⟨n, launched.set_tree⟩).bind fun _ => keeps_pure _
  pause := keeps_sleep
  say := keeps_say

end World

namespace Run

variable {w : World} {c : Config} (s : Session) (a : Analyzer) (o : Oracle) (root : Path)

theorem keeps_dryRun_onlyLaunched :
    Keeps (OnlyLaunched w (a.analysing s.analysis)) (dryRun s (.ofWorld a o root)) := by
  rw [dryRun_eq, ← s.analyze_asking]
  refine (keeps_say _ _).bind fun _ => Keeps.bind ?_ fun found => keeps_present s found
  exact (s.agree_analyze (keeps_asking a o root s.analysis).agrees).keeps

theorem keeps_fullRun_onlyLaunched :
    Keeps (OnlyLaunched w (a.analysing s.analysis)) (fullRun c s (.ofWorld a o root)) := by
  rw [fullRun_eq, ← s.run_asking]
  refine (keeps_say _ _).bind fun _ =>
    (s.keeps_run (keeps_asking a o root s.analysis) .zero).bind fun answer => ?_
  cases answer with
  | error f => exact keeps_pure _
  | ok r => exact fun w' ⟨n, launched⟩ => ⟨n, keeps_report r w' launched⟩

theorem analysis_of_ofSettings {settings : SessionSettings} {session : Session}
    (h : Session.ofSettings settings w = .ok session) : session.analysis = settings.analysis := by
  unfold Session.ofSettings at h
  split at h
  case h_1 => rw [← Except.ok.inj h]
  case h_2 => cases h
  case h_3 => cases h

/-- A prepared session asks the analyzer for what the configuration says. -/
theorem analysis_of_prepare {session : Session} {crew : Crew World}
    (h : prepare c w = .ok (session, crew)) : session.analysis = c.settings.analysis := by
  obtain ⟨-, prepared, -⟩ := exists_of_prepare h
  exact analysis_of_ofSettings prepared

/-- Whatever a configuration asks for, all programs are launched in one way, with the arguments that say what
the analyzer is asked. -/
theorem onlyLaunched_perform (c : Config) (w : World) :
    ∃ l, l.arguments = c.query.arguments ∧ OnlyLaunched w l ((perform c).run w).2 := by
  obtain ⟨w', launched, -, same⟩ := perform_eq c w
  rw [same]
  cases hp : prepare c w' with
  | error f => exact ⟨⟨"", c.query.arguments, "", none⟩, rfl, 0, launched⟩
  | ok prepared =>
    obtain ⟨s, crew⟩ := prepared
    obtain ⟨a, o, rfl⟩ := of_prepare_eq_ok hp
    have arguments : (a.analysing s.analysis).arguments = c.query.arguments := by
      rw [analysis_of_prepare hp, ← arguments_query]
      rfl
    have kept := Keeps.ite (c := c.dryRun = true) (keeps_dryRun_onlyLaunched (w := w) s a o (c.root w'.directory))
      (keeps_fullRun_onlyLaunched (c := c) s a o (c.root w'.directory))
    exact ⟨_, arguments, kept w' ⟨0, launched⟩⟩

theorem keeps_leave {I : World → Prop} [Aside I] (result : Except Failure Nat) : Keeps I (leave result) := by
  cases result with
  | ok code => exact keeps_pure _
  | error f => exact (keeps_print _ _).bind fun _ => keeps_pure _

/-- The programs that a run launches are told what its command line says of the analysis, none of which can be
taken for an option, and no other command line that is accepted tells them the same. -/
theorem start_asks (args : List String) (w : World) (c : Config)
    (h : parse w.environment w.directory args = .ok c) :
    (∀ p ∈ processesOf args w, p.launch.arguments = c.query.arguments) ∧ c.query.Undashed ∧
      ∀ environment directory args' c', parse environment directory args' = .ok c' →
        c'.query.arguments = c.query.arguments → c'.query = c.query := by
  have plain := plain_of_parse_ok h
  refine ⟨?_, plain.undashed, fun _ _ _ c' h' same => (plain_of_parse_ok h').arguments_inj plain same⟩
  obtain ⟨l, arguments, launched⟩ := onlyLaunched_perform c w
  have ended : OnlyLaunched w l ((start args).run w).2 := by
    rw [start_of_parse_ok h, run_bind]
    exact keeps_leave _ _ launched
  intro p hp
  rw [ended.launch_eq p hp, arguments]

end Run

namespace Asked

def world : World where
  tree := ⟨[(Path.resolve [] "/p/vendor/bin/phpstan".toList, .file ⟨[], true, true⟩)]⟩
  directory := []
  environment := []
  debug := false
  exits := ⟨⟨some 0, some "", some "", none⟩, []⟩
  replies := ⟨.ok "", []⟩
  cache := .empty
  trace := []

def args : List String := ["-v", "--level", "5", "/p", "-c", "phpstan.neon", "-p", "src", "tests"]

def config : Config :=
  { Config.initial [] with
    projectPath := "/p"
    verbose := true
    level := some 5
    configPath := some "phpstan.neon"
    paths := some ["src", "tests"] }

def args' : List String := ["--paths", "src", "tests", "--config", "phpstan.neon", "--dry-run", "/p", "-l", "0x5", "-v"]

def config' : Config := { config with dryRun := true }

/-- The command line is told to the analyzer, and one that tells it the same asks the same. -/
theorem query_eq : parse [] [] args = .ok config ∧ parse [] [] args' = .ok config' ∧
    (Run.processesOf args world).length = 1 ∧
    (∀ p ∈ Run.processesOf args world, p.launch.arguments =
      ["analyse", "-v", "--level", "5", "--configuration", "phpstan.neon", "src", "tests"]) ∧
    config'.query = config.query := by
  have accepted : parse [] [] args = .ok config := by decide +kernel
  have accepted' : parse [] [] args' = .ok config' := by decide +kernel
  obtain ⟨told, -, unique⟩ := Run.start_asks args world config accepted
  have arguments : config.query.arguments =
      ["analyse", "-v", "--level", "5", "--configuration", "phpstan.neon", "src", "tests"] := by decide +kernel
  refine ⟨accepted, accepted', by decide +kernel, fun p hp => (told p hp).trans arguments, ?_⟩
  exact unique [] [] args' config' accepted' rfl

end Asked
end Mender
