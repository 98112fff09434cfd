import Mender.Proofs.Fix.Applicator
import Mender.Proofs.Fix.Obstacles

/-! A list of fixes of which some fail. Every one of them is tried, and one that fails is as good as not
being in the list: it is written down, and the files are what they were before it. -/

namespace Mender

namespace Fix

/-- Fixes tried one after the other, from the files `t` to the files `t'`: the ones that are applied, and
the ones that something hinders, with what it is. -/
inductive FailSoft (root : Path) : Tree → List Fix → List Fix → List (Fix × Obstacle) → Tree → Prop where
  | done (t : Tree) : FailSoft root t [] [] [] t
  | applied {t t' t'' : Tree} {f : Fix} {fs kept : List Fix} {failed : List (Fix × Obstacle)}
      (free : ∀ o, ¬ Hinders root t f o) (step : f.applyTo root t = .ok t')
      (rest : FailSoft root t' fs kept failed t'') : FailSoft root t (f :: fs) (f :: kept) failed t''
  /-- The next fix finds the files that this one has found. -/
  | failed {t t' : Tree} {f : Fix} {fs kept : List Fix} {failed : List (Fix × Obstacle)} {o : Obstacle}
      (hindered : Hinders root t f o) (rest : FailSoft root t fs kept failed t') :
      FailSoft root t (f :: fs) kept ((f, o) :: failed) t'

section FailSoft

variable {root : Path} {t t' : Tree} {fs kept : List Fix} {failed : List (Fix × Obstacle)}

theorem exists_failSoft (root : Path) (t : Tree) (fs : List Fix) :
    ∃ kept, FailSoft root t fs kept (failures root t fs) (applyAll root t fs) := by
  induction fs generalizing t with
  | nil => exact ⟨[], .done t⟩
  | cons f fs ih =>
    rw [applyAll, List.foldl_cons, ← applyAll, attempt, failures, outcomes]
    cases h : f.applyTo root t with
    | ok t' =>
      obtain ⟨kept, rest⟩ := ih t'
      refine ⟨f :: kept, .applied (fun o hinders => ?_) h rest⟩
      cases h.symm.trans (applyTo_of_hinders hinders)
    | error o =>
      obtain ⟨kept, rest⟩ := ih t
      exact ⟨kept, .failed (applyTo_eq_error_iff.1 h) rest⟩

theorem FailSoft.eq (h : FailSoft root t fs kept failed t') :
    failures root t fs = failed ∧ applyAll root t fs = t' := by
  induction h with
  | done t => exact ⟨rfl, rfl⟩
  | applied free step rest ih =>
    rw [applyAll, List.foldl_cons, ← applyAll, attempt, failures, outcomes, step]
    exact ih
  | failed hindered rest ih =>
    rw [applyAll, List.foldl_cons, ← applyAll, attempt, failures, outcomes, applyTo_of_hinders hindered]
    exact ⟨congrArg _ ih.1, ih.2⟩

/-- Without the fixes that fail, the others come to the same. -/
theorem FailSoft.alone (h : FailSoft root t fs kept failed t') : FailSoft root t kept kept [] t' := by
  induction h with
  | done t => exact .done t
  | applied free step rest ih => exact .applied free step ih
  | failed hindered rest ih => exact ih

end FailSoft

end Fix

namespace Applicator

structure FailsSoft (a : Applicator) (fs : List Fix) (w : World) (kept : List Fix)
    (failed : List (Fix × Obstacle)) : Prop where
  tried : Fix.FailSoft a.root w.tree fs kept failed ((a.apply fs).run w).2.tree
  recorded : ((a.apply fs).run w).1.2 = ⟨a.root, failed⟩
  answer_iff : ((a.apply fs).run w).1.1 = true ↔ failed = []
  /-- Nothing that failed before is among the failures. -/
  forgets : ∀ before : List (Fix × Obstacle), ((Applicator.mk a.root before).apply fs).run w = (a.apply fs).run w
  /-- Alone, from the same files, the fixes that are applied do not fail, and lead to the same files. -/
  alone : ∀ (before : List (Fix × Obstacle)) (w' : World),
    (((Applicator.mk a.root before).apply kept).run (w'.withTree w.tree)).1 = (true, ⟨a.root, []⟩) ∧
      (((Applicator.mk a.root before).apply kept).run (w'.withTree w.tree)).2.tree =
        ((a.apply fs).run w).2.tree

/-- Fixes that fail do not hinder the others, and leave nothing behind. -/
theorem apply_failsSoft (a : Applicator) (fs : List Fix) (w : World) :
    ∃ kept failed, a.FailsSoft fs w kept failed := by
  obtain ⟨kept, tried⟩ := Fix.exists_failSoft a.root w.tree fs
  have tree : ((a.apply fs).run w).2.tree = Fix.applyAll a.root w.tree fs := by
    rw [run_apply, World.tree_withTree]
  refine ⟨kept, Fix.failures a.root w.tree fs, ?_⟩
  constructor
  case tried => rwa [tree]
  case recorded => rw [run_apply]
  case answer_iff => rw [run_apply, List.isEmpty_iff]
  case forgets =>
    intro before
    rw [run_apply, run_apply]
  case alone =>
    intro before w'
    obtain ⟨failures, applied⟩ := tried.alone.eq
    rw [tree, run_apply, World.tree_withTree, World.tree_withTree, failures, applied]
    exact ⟨rfl, rfl⟩

end Applicator

end Mender
