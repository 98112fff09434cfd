import Mender.Proofs.Steps
import Mender.Session.Loop

/-! A session asks its analyzer one thing only, however often it does. So it goes on alike with a crew whose
analyzer cannot be asked anything else. -/

namespace Mender

variable {σ : Type}

/-- The crew with an analyzer that takes every question for this one. -/
def Crew.asking (options : Option AnalysisOptions) (crew : Crew σ) : Crew σ :=
  { crew with analyze := fun _ => crew.analyze options }

namespace Session

variable (s : Session) (crew : Crew σ)

theorem analyze_asking : s.analyze (crew.asking s.analysis) = s.analyze crew := rfl

theorem processBatches_asking (total position applied : Nat) (stats : Stats) (bs : List Batch) :
    s.processBatches (crew.asking s.analysis) total position applied stats bs =
      s.processBatches crew total position applied stats bs := by
  induction bs generalizing position applied stats with
  | nil => rfl
  | cons b bs ih =>
    simp only [processBatches, ih]
    rfl

theorem iterate_asking (i left : Nat) (stats : Stats) :
    s.iterate (crew.asking s.analysis) i left stats = s.iterate crew i left stats := by
  induction left generalizing i stats with
  | zero =>
    rw [iterate, iterate]
    simp only [processBatches_asking]
    rfl
  | succ left ih =>
    rw [iterate, iterate]
    simp only [processBatches_asking, ih]
    rfl

theorem run_asking (stats : Stats) : s.run (crew.asking s.analysis) stats = s.run crew stats :=
  s.iterate_asking crew 1 _ stats

end Session
end Mender
