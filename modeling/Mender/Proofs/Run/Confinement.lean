import Mender.Proofs.Fix.Confinement
import Mender.Proofs.World.Files

/-! Whatever a run is told by its arguments, the analyzer and the model, the files it writes are those
of the project and the one for the figures. Of the project's files it changes nothing but bytes. -/

namespace Mender

open CommandLine

namespace CommandLine.Config

def root (c : Config) (directory : Path) : Path := Path.resolve directory c.projectPath.toList

/-- The place of the figures, if they are to be written. -/
def statsPlace? (c : Config) (directory : Path) : Option Path :=
  (c.statsFile.filter (· != "")).map fun file => Path.resolve directory file.toList

end CommandLine.Config

namespace Run

theorem keeps_configure {P : Tree → Path → Prop} (args : List String) :
    Keeps (World.Files P) (configure args) := by
  refine keeps_get.bind fun w => ?_
  split
  · exact keeps_pure _
  · refine Keeps.bind ?_ fun _ => keeps_pure _
    exact (World.keeps_say _ _).bind fun _ => (World.keeps_say _ _).bind fun _ => World.keeps_record rfl rfl

theorem project_of_ofSettings {settings : SessionSettings} {w : World} {session : Session}
    (h : Session.ofSettings settings w = .ok session) :
    session.project = w.resolve settings.projectPath := by
  unfold Session.ofSettings at h
  split at h
  case h_1 => rw [← Except.ok.inj h]
  case h_2 => cases h
  case h_3 => cases h

/-- A run is prepared with the session of its settings, and with a crew for that one. -/
theorem exists_of_prepare {c : Config} {w : World} {session : Session} {crew : Crew World}
    (h : prepare c w = .ok (session, crew)) :
    ∃ analyzer, Session.ofSettings c.settings w = .ok session ∧
      crew = .ofWorld analyzer .usual session.project := by
  obtain ⟨analyzer, -, h⟩ := bind_eq_ok_iff.1 h
  obtain ⟨s, prepared, h⟩ := bind_eq_ok_iff.1 h
  cases h
  exact ⟨analyzer, prepared, rfl⟩

/-- The crew of a prepared run works in the project. -/
theorem of_prepare_eq_ok {c : Config} {w : World} {session : Session} {crew : Crew World}
    (h : prepare c w = .ok (session, crew)) :
    ∃ analyzer oracle, crew = .ofWorld analyzer oracle (c.root w.directory) := by
  obtain ⟨analyzer, prepared, rfl⟩ := exists_of_prepare h
  exact ⟨analyzer, .usual, by rw [project_of_ofSettings prepared]; rfl⟩

/-- What is true of the files after a part of a run that started from `t` in `directory`. -/
def Confined (c : Config) (t : Tree) (directory : Path) : World → Prop :=
  World.Files fun t' d => d = directory ∧
    t.MendedUnder (c.root directory) (c.statsPlace? directory) t'

variable {c : Config} {t : Tree} {directory : Path}

instance : World.Aside (Confined c t directory) := inferInstanceAs (World.Aside (World.Files _))

theorem keeps_crew (analyzer : Analyzer) (oracle : Oracle) :
    (Crew.ofWorld analyzer oracle (c.root directory)).Keeps (Confined c t directory) :=
  Crew.keeps_ofWorld fun fs t' _ h => ⟨h.1, h.2.trans (Fix.mendedUnder_applyAll t' fs)⟩

theorem keeps_dryRun {session : Session} {crew : Crew World}
    (h : crew.Keeps (Confined c t directory)) :
    Keeps (Confined c t directory) (dryRun session crew) := by
  refine (World.keeps_say _ _).bind fun _ => (session.agree_analyze h.agrees).keeps.bind fun found => ?_
  cases found with
  | error f => exact keeps_pure _
  | ok snapshot =>
    refine Keeps.ite ((World.keeps_say _ _).bind fun _ => keeps_pure _) ?_
    exact (World.keeps_say _ _).bind fun _ => (World.keeps_say _ _).bind fun _ =>
      (World.keeps_say _ _).bind fun _ => keeps_pure _

theorem keeps_writeStats {file : String}
    (h : c.statsPlace? directory = some (Path.resolve directory file.toList)) (stats : Stats) :
    Keeps (Confined c t directory) (writeStats file stats) := by
  rintro w ⟨rfl, hw⟩
  simp only [writeStats, StateT.run_bind, StateT.run_get, pure_bind]
  cases hwrite : w.tree.writeText (w.resolve file) stats.toJson.toText.toList with
  | error fault => exact ⟨rfl, hw⟩
  | ok tree =>
    refine ⟨rfl, hw.trans ?_⟩
    rw [h]
    exact .write hwrite

theorem keeps_fullRun {session : Session} {crew : Crew World}
    (h : crew.Keeps (Confined c t directory)) :
    Keeps (Confined c t directory) (fullRun c session crew) := by
  refine (World.keeps_say _ _).bind fun _ => (session.keeps_run h _).bind fun ended => ?_
  cases ended with
  | error f => exact keeps_pure _
  | ok report =>
    refine (World.keeps_say _ _).bind fun _ => (World.keeps_say _ _).bind fun _ => ?_
    dsimp only
    split
    case h_1 => exact keeps_pure _
    case h_2 file hfile =>
      refine (keeps_writeStats ?_ _).bind fun _ => keeps_pure _
      rw [Config.statsPlace?, hfile, Option.map_some]

theorem keeps_perform (c : Config) (t : Tree) (directory : Path) :
    Keeps (Confined c t directory) (perform c) := by
  refine Keeps.bind (keeps_modify fun _ h => h) fun _ => (World.keeps_printDebug _ _).bind fun _ => ?_
  rintro w ⟨rfl, hw⟩
  simp only [StateT.run_bind, StateT.run_get, pure_bind]
  cases hp : prepare c w with
  | error f => exact ⟨rfl, hw⟩
  | ok prepared =>
    obtain ⟨session, crew⟩ := prepared
    obtain ⟨analyzer, oracle, rfl⟩ := of_prepare_eq_ok hp
    have kept : (Crew.ofWorld analyzer oracle (c.root w.directory)).Keeps
        (Confined c t w.directory) := keeps_crew analyzer oracle
    exact Keeps.ite (keeps_dryRun kept) (keeps_fullRun kept) w ⟨rfl, hw⟩

theorem configure_eq (args : List String) (w : World) :
    ((configure args).run w).1 = (parse w.environment w.directory args).toOption := by
  simp only [configure, StateT.run_bind, StateT.run_get, pure_bind]
  cases parse w.environment w.directory args <;> rfl

/-- A run changes nothing but the bytes of files of its project, and the file for the figures. If the
command line is refused, it changes nothing. -/
theorem start_mendedUnder (args : List String) (w : World) :
    match parse w.environment w.directory args with
    | .error _ => ((start args).run w).2.tree = w.tree
    | .ok c =>
      w.tree.MendedUnder (c.root w.directory) (c.statsPlace? w.directory)
        ((start args).run w).2.tree := by
  have hc := configure_eq args w
  have kept : ((configure args).run w).2.tree = w.tree ∧
      ((configure args).run w).2.directory = w.directory :=
    keeps_configure (P := fun t d => t = w.tree ∧ d = w.directory) args w ⟨rfl, rfl⟩
  rcases hr : (configure args).run w with ⟨config?, w'⟩
  rw [hr] at hc kept
  obtain ⟨htree, hdir⟩ := kept
  dsimp only at hc htree hdir
  split
  case h_1 hp =>
    rw [hp] at hc
    subst hc
    simp only [start, StateT.run_bind, hr]
    exact htree
  case h_2 c hp =>
    rw [hp] at hc
    subst hc
    have confined {next : Except Failure Nat → Act Nat}
        (ended : ∀ answer, Keeps (Confined c w.tree w.directory) (next answer)) :
        w.tree.MendedUnder (c.root w.directory) (c.statsPlace? w.directory)
          ((perform c >>= next).run w').2.tree :=
      ((keeps_perform c _ _).bind ended w' ⟨hdir, htree ▸ .refl _⟩).2
    simp only [start, StateT.run_bind, hr]
    refine confined fun answer => ?_
    cases answer with
    | ok code => exact keeps_pure _
    | error f => exact (World.keeps_print _ _).bind fun _ => keeps_pure _

end Run
end Mender
