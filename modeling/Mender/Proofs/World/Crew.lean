import Mender.Proofs.Session.Sendings
import Mender.Proofs.World.Files

/-! The crew of a run works on the tree of the world, under the root of the project. -/

namespace Mender

namespace World

variable {α β : Type}

theorem mapM_eq {f : α → Act β} {g : Tree → α → β}
    (keeps : ∀ a t, Keeps (fun w : World => w.tree = t) (f a))
    (answers : ∀ a w, ((f a).run w).1 = g w.tree a) (as : List α) (w : World) :
    ((as.mapM f).run w).1 = as.map (g w.tree) := by
  induction as generalizing w with
  | nil => rfl
  | cons a as ih =>
    rw [List.mapM_cons, List.map_cons]
    change ((f a).run w).1 :: ((as.mapM f).run ((f a).run w).2).1 = _
    rw [answers, ih, keeps a w.tree w rfl]

theorem content?_eq (root : Path) (file : String) (w : World) :
    ((content? root file).run w).1 = w.tree.content? root file := by
  unfold content? Tree.content?
  simp only [StateT.run_bind, StateT.run_get, pure_bind, readFile]
  cases hread : w.tree.readText (Path.resolve root file.toList) with
  | ok text =>
    obtain ⟨f, hf, -, -⟩ := Tree.readText_eq_ok_iff.1 hread
    rw [if_pos (by rw [Tree.isFile, hf])]
    rfl
  | error fault => split <;> rfl

theorem contents_eq (root : Path) (files : List String) (w : World) :
    ((contents root files).run w).1 = w.tree.contents root files := by
  have each := mapM_eq (g := Tree.content? root)
    (fun file t => keeps_content? (I := Files fun t' _ => t' = t) root file) (content?_eq root) files w
  change Request.contentsOf ((((files.mapM (content? root)).run w).1).filterMap id) = _
  rw [each, List.filterMap_map]
  rfl

theorem applyFixes_eq (root : Path) (fixes : List Fix) (w : World) :
    ((applyFixes root fixes).run w).1 = .ok (Fix.failures root w.tree fixes).isEmpty ∧
      ((applyFixes root fixes).run w).2.tree = Fix.applyAll root w.tree fixes := by
  rw [applyFixes, run_bind, Fix.run_apply]
  have told := Keeps.forM (Fix.keeps_announce (I := Files fun t _ => t = Fix.applyAll root w.tree fixes))
    (Fix.outcomes root w.tree fixes)
  exact ⟨rfl, told (w.withTree (Fix.applyAll root w.tree fixes)) rfl⟩

end World

theorem Crew.worksOn_ofWorld (analyzer : Analyzer) (oracle : Oracle) (root : Path) :
    (Crew.ofWorld analyzer oracle root).WorksOn World.tree root where
  analyze options x :=
    analyzer.keeps_run (I := World.Files fun t _ => t = x.tree) World.keeps_launch options x rfl
  parse _ _ := rfl
  contents files x :=
    ⟨World.contents_eq root files x,
      World.keeps_contents (I := World.Files fun t _ => t = x.tree) root files x rfl⟩
  consult request x :=
    oracle.keeps_consult (I := World.Files fun t _ => t = x.tree) World.keeps_ask request x rfl
  apply fixes x := World.applyFixes_eq root fixes x
  pause duration x := World.keeps_sleep (I := World.Files fun t _ => t = x.tree) duration x rfl
  say channel text x := World.keeps_say (I := World.Files fun t _ => t = x.tree) channel text x rfl

end Mender
