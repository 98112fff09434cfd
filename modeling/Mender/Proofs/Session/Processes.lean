import Mender.Proofs.Session.Status
import Mender.Proofs.World.Processes

/-! The analyses of a session and the programs it launched. Only analyses launch any, and an analysis that
succeeds is what the program launched for it gave. So the last analysis tells how the last program ended. -/

namespace Mender

open World

/-- The analysis is what a program gave that was launched for one. -/
structure Process.Gives (p : Process) (analysis : Analysis) : Prop where
  analyse : p.launch.arguments.head? = some "analyse"
  launched : p.exit.fault = none
  analysis_eq : Analyzer.analysisOf p.exit = analysis

/-- Since `w`, programs were launched for analyses with these answers. -/
def Followed (w : World) (answers : List (Except Failure Analysis)) (w' : World) : Prop :=
  ∃ ls, Launched w ls w' ∧ ∀ analysis, answers.getLast? = some (.ok analysis) →
    ∃ p, (w.ended ls).getLast? = some p ∧ p.Gives analysis

namespace Followed

variable {w w' : World} {answers : List (Except Failure Analysis)}

theorem nil (w : World) : Followed w [] w := ⟨[], launched_nil w, fun _ h => by cases h⟩

instance : Aside (Followed w answers) where
  record w' noLaunch noQuestion := by
    rintro ⟨ls, launched, last⟩
    exact ⟨ls, Aside.record w' noLaunch noQuestion launched, last⟩
  cache cache w' := by
    rintro ⟨ls, launched, last⟩
    exact ⟨ls, Aside.cache cache w' launched, last⟩

theorem keeps_ask (q : Question) : Keeps (Followed w answers) (ask q) := by
  rintro w' ⟨ls, launched, last⟩
  exact ⟨ls, keeps_ask_launched q w' launched, last⟩

theorem set_tree {tree : Tree} (h : Followed w answers w') : Followed w answers { w' with tree } := by
  obtain ⟨ls, launched, last⟩ := h
  exact ⟨ls, launched.set_tree, last⟩

theorem analyze (a : Analyzer) (options? : Option AnalysisOptions) (h : Followed w answers w') :
    Followed w (answers ++ [((a.run options?).run w').1]) ((a.run options?).run w').2 := by
  obtain ⟨ls, launched, last⟩ := h
  cases installed : a.isInstalled w' with
  | false =>
    rw [a.run_of_not_installed installed options?]
    refine ⟨ls, launched, fun analysis h => ?_⟩
    rw [List.getLast?_concat] at h
    cases h
  | true =>
    obtain ⟨answer, launched'⟩ := a.run_of_installed installed options? launched
    refine ⟨_, launched', fun analysis h => ⟨_, getLast?_ended_concat w ls _, ?_⟩⟩
    rw [List.getLast?_concat, Option.some.injEq, answer] at h
    obtain ⟨fault, same⟩ := a.answerOf_eq_ok_iff.1 h
    exact ⟨a.head?_analysing options?, fault, same⟩

end Followed

namespace Session

variable {w : World}

def FollowedIn (w : World) (xh : Recorded World) : Prop :=
  Followed w (analyses (xh.2.map Moment.exchange)) xh.1

theorem keeps_recording_of_quiet {α : Type} {tell : α → Exchange} {act : Act α}
    (quiet : ∀ a, (tell a).analysis? = none) (h : ∀ answers, Keeps (Followed w answers) act) :
    Keeps (FollowedIn w) (recording tell act) := by
  rintro ⟨x, hist⟩ hx
  change Followed w (analyses ((hist ++ [Moment.mk x (tell (act.run x).1)]).map Moment.exchange))
    (act.run x).2
  rw [List.map_append, analyses_append]
  have added : analyses [tell (act.run x).1] = [] := by
    simp [analyses, quiet]
  rw [List.map_singleton, added, List.append_nil]
  exact h _ x hx

theorem keeps_recorded_ofWorld (a : Analyzer) (o : Oracle) (root : Path) :
    (Crew.ofWorld a o root).recorded.Keeps (FollowedIn w) where
  analyze options := by
    rintro ⟨x, hist⟩ hx
    have followed := Followed.analyze a options hx
    change Followed w (analyses ((hist ++ [Moment.mk x (.analysis options ((a.run options).run x).1)]).map
      Moment.exchange)) ((a.run options).run x).2
    rw [List.map_append, analyses_append]
    exact followed
  parse _ := keeps_recording_of_quiet (fun _ => rfl) fun _ => keeps_pure _
  contents files := keeps_recording_of_quiet (fun _ => rfl) fun _ => keeps_contents root files
  consult request :=
    keeps_recording_of_quiet (fun _ => rfl) fun _ => o.keeps_consult Followed.keeps_ask request
  apply fixes := keeps_recording_of_quiet (fun _ => rfl) fun _ =>
    (Fix.keeps_apply fun _ => Followed.set_tree).bind fun _ => keeps_pure _
  pause duration := keeps_recording_of_quiet (fun _ => rfl) fun _ => keeps_sleep duration
  say channel text := by
    rintro ⟨x, hist⟩ hx
    exact keeps_say channel text x hx

theorem followed_run (s : Session) (a : Analyzer) (o : Oracle) (root : Path) (stats : Stats) (w : World) :
    Followed w (analyses (s.exchanges (.ofWorld a o root) stats w))
      ((s.run (.ofWorld a o root) stats).run w).2 := by
  have kept := s.keeps_run (keeps_recorded_ofWorld (w := w) a o root) stats (w, []) (.nil w)
  have same := (s.agree_run (Crew.recorded_agrees (.ofWorld a o root)) stats (w, []) w rfl).2
  rw [← same]
  exact kept

/-- A session that converges ends with a program that gave exit code zero. -/
theorem exists_process_of_success {s : Session} {a : Analyzer} {o : Oracle} {root : Path} {stats : Stats}
    {report : RunReport} (h : ((s.run (.ofWorld a o root) stats).run w).1 = .ok report)
    (success : report.success = true) :
    ∃ ls p analysis, Launched w ls ((s.run (.ofWorld a o root) stats).run w).2 ∧
      (w.ended ls).getLast? = some p ∧ p.Gives analysis ∧ analysis.exitCode = 0 := by
  have verdict := (s.run_course (.ofWorld a o root) stats w).verdict
  obtain ⟨it, analysis, last, answer, passing⟩ := verdict.success.1 ⟨report, h, success⟩
  obtain ⟨ls, launched, given⟩ := s.followed_run a o root stats w
  have lastAnswer : (analyses (s.exchanges (.ofWorld a o root) stats w)).getLast? = some (.ok analysis) := by
    rw [← map_answer_iterations, List.getLast?_map, last, ← answer]
    rfl
  obtain ⟨p, hp, gives⟩ := given analysis lastAnswer
  exact ⟨ls, p, analysis, launched, hp, gives, passing⟩

end Session
end Mender
