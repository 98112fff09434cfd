import Mender.Fix.Apply
import Mender.Proofs.Steps

/-! What applying fixes comes to. Fixes are tried and told of by turns; as telling of them changes no file,
it comes to the same if all of them are tried first. -/

namespace Mender

open Mender.Fix

def World.withTree (w : World) (t : Tree) : World := { w with tree := t }

@[simp] theorem World.tree_withTree (w : World) (t : Tree) : (w.withTree t).tree = t := rfl

/-- What fixes come to is told whatever the files are. -/
theorem Fix.announce_withTree (outcome : Fix × Option Obstacle) (w : World) (t : Tree) :
    ((announce outcome).run (w.withTree t)).2 = ((announce outcome).run w).2.withTree t := by
  obtain ⟨f, obstacle?⟩ := outcome
  obtain ⟨_, _, _, debug, _, _, _, _⟩ := w
  cases obstacle? with
  | some obstacle => rfl
  | none => cases debug <;> rfl

theorem Fix.announceAll_withTree (outcomes : List (Fix × Option Obstacle)) (w : World) (t : Tree) :
    ((outcomes.forM announce).run (w.withTree t)).2 = ((outcomes.forM announce).run w).2.withTree t := by
  induction outcomes generalizing w with
  | nil => rfl
  | cons outcome outcomes ih =>
    change ((outcomes.forM announce).run ((announce outcome).run (w.withTree t)).2).2 = _
    rw [announce_withTree]
    exact ih _

namespace Applicator

variable {a : Applicator} {f : Fix} {fs : List Fix} {w : World}

theorem run_tryFix_of_ok {t : Tree} (h : f.applyTo a.root w.tree = .ok t) :
    (a.tryFix f).run w = (a, ((announce (f, none)).run w).2.withTree t) := by
  rw [← announce_withTree]
  simp only [tryFix, StateT.run_bind, StateT.run_get, pure_bind, h]
  rfl

theorem run_tryFix_of_error {obstacle : Obstacle} (h : f.applyTo a.root w.tree = .error obstacle) :
    (a.tryFix f).run w = (⟨a.root, a.lastFailures ++ [(f, obstacle)]⟩,
      ((announce (f, some obstacle)).run w).2.withTree w.tree) := by
  rw [← announce_withTree]
  simp only [tryFix, StateT.run_bind, StateT.run_get, pure_bind, h]
  rfl

theorem run_tryFixes (a : Applicator) (fs : List Fix) (w : World) :
    (fs.foldlM tryFix a).run w =
      (⟨a.root, a.lastFailures ++ failures a.root w.tree fs⟩,
        (((outcomes a.root w.tree fs).forM announce).run w).2.withTree (applyAll a.root w.tree fs)) := by
  induction fs generalizing a w with
  | nil =>
    rw [failures, outcomes, List.filterMap_nil, List.append_nil]
    rfl
  | cons f fs ih =>
    rw [List.foldlM_cons, run_bind, applyAll, List.foldl_cons, ← applyAll, attempt, failures, outcomes]
    cases h : f.applyTo a.root w.tree with
    | ok t =>
      rw [run_tryFix_of_ok h, ih, announceAll_withTree]
      rfl
    | error obstacle =>
      rw [run_tryFix_of_error h, ih, announceAll_withTree, List.append_assoc]
      rfl

/-- The failures of a call are those of the fixes that it was given, and of no others. -/
theorem run_apply (a : Applicator) (fs : List Fix) (w : World) :
    (a.apply fs).run w =
      (((failures a.root w.tree fs).isEmpty, ⟨a.root, failures a.root w.tree fs⟩),
        (((outcomes a.root w.tree fs).forM announce).run w).2.withTree (applyAll a.root w.tree fs)) := by
  rw [apply, run_bind, run_tryFixes]
  rfl

end Applicator

theorem Fix.run_apply (root : Path) (fs : List Fix) (w : World) :
    (apply root fs).run w =
      (do (outcomes root w.tree fs).forM announce; pure (failures root w.tree fs)).run
        (w.withTree (applyAll root w.tree fs)) := by
  rw [apply, run_bind, Applicator.run_apply, run_bind, ← announceAll_withTree]

end Mender
