import Mathlib.Tactic.ByContra
import Mender.Proofs.Session.Status

/-! Which analyses a session converges on, whoever works on it: the ones that end with zero. One that fails
leaves it stuck as soon as nothing can be read of it. -/

namespace Mender.Session

/-- A session that is given this analysis whenever it asks for one converges. -/
def Converges (s : Session) (analysis : Analysis) : Prop :=
  ∀ (σ : Type) (crew : Crew σ) (stats : Stats) (x : σ),
    (∀ y, ((crew.analyze s.analysis).run y).1 = .ok analysis) →
      statusOf ((s.run crew stats).run x).1 = some .converged

section Converges

variable {σ : Type} {s : Session} {crew : Crew σ} {analysis : Analysis}

/-- Nothing is found if the analysis is clean, or nothing can be read of it. -/
theorem analyze_of_blank (given : ∀ y, ((crew.analyze s.analysis).run y).1 = .ok analysis)
    (blank : analysis.exitCode = 0 ∨ ∀ y, ((crew.parse analysis.output).run y).1 = []) (y : σ) :
    ((s.analyze crew).run y).1 = .ok ⟨analysis.exitCode, []⟩ := by
  rw [analyze, run_bind, given y]
  generalize ((crew.analyze s.analysis).run y).2 = z
  change ((if analysis.exitCode = 0 then _ else _ : StateM σ (Except Failure Snapshot)).run z).1 = _
  split
  case isTrue => rfl
  case isFalse failing =>
    have unread := blank.resolve_left failing z
    exact congrArg (fun ds => Except.ok (Snapshot.mk analysis.exitCode ds)) unread

/-- An analysis that finds nothing ends a session at once. -/
theorem statusOf_run_of_blank {snapshot : Snapshot} (h : ∀ y, ((s.analyze crew).run y).1 = .ok snapshot)
    (blank : snapshot.diagnostics = []) (stats : Stats) (x : σ) :
    statusOf ((s.run crew stats).run x).1 =
      some (if snapshot.exitCode = 0 then .converged else .stuck) := by
  unfold run
  generalize s.maxIterations - 1 = left
  have ended (y : σ) (stats : Stats) {rest : StateM σ (Except Failure RunReport)} :
      statusOf (StateT.run (if snapshot.exitCode = 0 then do
          crew.say .log ("\n✅ All PHPStan errors fixed! Total fixed: " ++ stats.fixesApplied.toText)
          return .ok ⟨.clean, stats⟩
        else if snapshot.diagnostics.isEmpty then return .ok ⟨.unparsed snapshot.exitCode, stats⟩
        else rest) y).1 = some (if snapshot.exitCode = 0 then .converged else .stuck) := by
    rw [blank]
    split <;> rfl
  rw [iterate, run_bind, run_bind, h]
  exact ended _ _

theorem converges_iff : s.Converges analysis ↔ analysis.exitCode = 0 := by
  constructor
  · intro converges
    by_contra failing
    -- a crew that can read nothing of the analysis
    let crew : Crew Unit :=
      { analyze := fun _ => pure (.ok analysis)
        parse := fun _ => pure []
        contents := fun _ => pure []
        consult := fun _ => pure (.ok ⟨.success, "", []⟩)
        apply := fun _ => pure (.ok true)
        pause := fun _ => pure ()
        say := fun _ _ => pure () }
    have blank : ∀ y, ((s.analyze crew).run y).1 = .ok ⟨analysis.exitCode, []⟩ :=
      analyze_of_blank (fun _ => rfl) (.inr fun _ => rfl)
    have stuck := statusOf_run_of_blank blank rfl .zero ()
    rw [converges Unit crew .zero () fun _ => rfl, if_neg failing] at stuck
    cases stuck
  · intro passing σ crew stats x given
    rw [statusOf_run_of_blank (analyze_of_blank given (.inl passing)) rfl, if_pos passing]

end Converges

end Mender.Session
