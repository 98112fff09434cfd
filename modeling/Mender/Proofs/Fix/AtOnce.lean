import Mender.Proofs.Fix.Shown

/-! Fixes are applied one after the other, but they name the lines that were shown. If those of each file
go from its last line up, or put in no further lines, every fix finds its line, all of them succeed, and
the file comes to what replacing all the lines at once comes to. -/

namespace Mender

open Mender.Text

namespace Fix

structure Fits (root : Path) (t : Tree) (f : Fix) : Prop where
  inside : root <+: f.target root
  there : ∃ s i, t.readText (f.target root) = .ok s ∧ f.line.row? = some i ∧ i < (lines s).length
  writable : t.Writable (f.target root)

/-- The fixes of one file go from its last line up; or they name its lines in any order, each at most
once, and put in one line each. -/
def InOrder (fs : List Fix) : Prop :=
  fs.Pairwise (fun f g => g.line.lt f.line = true) ∨
    (fs.Pairwise (fun f g => f.line ≠ g.line) ∧ ∀ f ∈ fs, '\n' ∉ f.fixed.toList)

/-- The text for line `i`, counted from zero, of the file at `p`. -/
def textFor? (root p : Path) (fs : List Fix) (i : Nat) : Option (List Char) :=
  (fs.find? fun f => f.target root = p ∧ f.line.row? = some i).map (·.fixed.toList)

/-- The text of the file at `p` with all lines replaced that fixes name. -/
def appliedAtOnce (root p : Path) (fs : List Fix) (s : List Char) : List Char :=
  unlines ((lines s).mapIdx fun i l => (textFor? root p fs i).getD l)

variable {root p : Path} {t t' : Tree} {f g : Fix} {fs : List Fix}

section Text

theorem insteadOf_edits (root p : Path) (fs : List Fix) (i : Nat) (l : List Char) :
    insteadOf (edits root p fs) i l = ((textFor? root p fs i).map lines).getD [l] := by
  induction fs with
  | nil => rfl
  | cons f fs ih =>
    have later (h : ¬ (f.target root = p ∧ f.line.row? = some i)) :
        textFor? root p (f :: fs) i = textFor? root p fs i := by
      rw [textFor?, List.find?_cons_of_neg (by simpa using h)]
      rfl
    by_cases hp : f.target root = p
    · cases hrow : f.line.row? with
      | none =>
        have same : edits root p (f :: fs) = edits root p fs := by simp [edits, hp, edit?, hrow]
        rw [same, ih, later (by simp [hrow])]
      | some j =>
        have first : edits root p (f :: fs) =
            ⟨j, lines f.fixed.toList, lines_ne_nil _⟩ :: edits root p fs := by
          simp [edits, hp, edit?, hrow]
        rw [first]
        by_cases hj : i = j
        · subst hj
          rw [insteadOf_cons_self ⟨i, lines f.fixed.toList, lines_ne_nil _⟩, textFor?,
            List.find?_cons_of_pos (by simp [hp, hrow])]
          rfl
        · rw [insteadOf_cons_of_ne hj, ih, later (by simp [hrow, Ne.symm hj])]
    · have same : edits root p (f :: fs) = edits root p fs := by simp [edits, hp]
      rw [same, ih, later (by simp [hp])]

theorem unlines_flatMap_lines {ls : List (List Char)} (h : ls ≠ []) :
    unlines (ls.flatMap lines) = unlines ls := by
  rw [← lines_unlines_flatMap h, unlines_lines]

theorem unlines_editedAtOnce (root p : Path) (fs : List Fix) (s : List Char) :
    unlines (editedAtOnce (lines s) (edits root p fs)) = appliedAtOnce root p fs s := by
  have each : (lines s).mapIdx (insteadOf (edits root p fs)) =
      ((lines s).mapIdx fun i l => (textFor? root p fs i).getD l).map lines := by
    refine List.ext_getElem (by simp) fun i hi _ => ?_
    rw [List.length_mapIdx] at hi
    rw [List.getElem_map, List.getElem_mapIdx, List.getElem_mapIdx, insteadOf_edits]
    cases textFor? root p fs i with
    | some text => rfl
    | none => exact (lines_of_not_mem (not_mem_of_mem_lines (List.getElem_mem hi))).symm
  rw [editedAtOnce, each, ← List.flatMap_def, unlines_flatMap_lines, appliedAtOnce]
  simpa using lines_ne_nil s

end Text

section Order

/-- A fix that leaves the line of the other one where it is. -/
def Spares (root : Path) (f g : Fix) : Prop :=
  f.target root = g.target root →
    g.line.lt f.line = true ∨ (f.line ≠ g.line ∧ '\n' ∉ f.fixed.toList)

theorem InOrder.sublist {gs : List Fix} (h : InOrder fs) (hs : gs.Sublist fs) : InOrder gs :=
  h.imp (fun up => up.sublist hs) fun each => ⟨each.1.sublist hs, fun f hf => each.2 f (hs.subset hf)⟩

theorem pairwise_spares (order : ∀ p, InOrder (fs.filter (·.target root = p))) :
    fs.Pairwise (Spares root) := by
  induction fs with
  | nil => exact .nil
  | cons f fs ih =>
    refine List.pairwise_cons.2 ⟨fun g hg same => ?_, ih fun p => ?_⟩
    · have here := order (f.target root)
      rw [List.filter_cons_of_pos (by simp)] at here
      have mem : g ∈ fs.filter (·.target root = f.target root) :=
        List.mem_filter.2 ⟨hg, by simp [same]⟩
      rcases here with up | ⟨each, single⟩
      · exact .inl ((List.pairwise_cons.1 up).1 g mem)
      · exact .inr ⟨(List.pairwise_cons.1 each).1 g mem, single f List.mem_cons_self⟩
    · exact (order p).sublist ((List.sublist_cons_self f fs).filter _)

theorem Spares.before {e e' : Edit (List Char)} (h : Spares root f g)
    (same : f.target root = g.target root) (he : f.edit? = some e) (he' : g.edit? = some e') :
    e.Before e' := by
  obtain ⟨i, hi, rfl⟩ := Option.map_eq_some_iff.1 he
  obtain ⟨j, hj, rfl⟩ := Option.map_eq_some_iff.1 he'
  rcases h same with up | ⟨apart, single⟩
  · exact .inl ((Number.lt_iff_of_row? hj hi).1 up)
  · exact .inr ⟨(Number.ne_iff_of_row? hj hi).1 apart.symm, length_lines_eq_one_iff.2 single⟩

theorem pairwise_before_edits (h : fs.Pairwise (Spares root)) (p : Path) :
    (edits root p fs).Pairwise Edit.Before := by
  refine List.pairwise_filterMap.2 (List.pairwise_filter.2 (h.imp fun spares hf hg e he e' he' => ?_))
  exact spares.before ((of_decide_eq_true hf).trans (of_decide_eq_true hg).symm) he he'

end Order

section Steps

theorem exists_readText_attempt {s : List Char} (root : Path) (f : Fix) (before : t.readText p = .ok s) :
    ∃ s', (attempt root t f).readText p = .ok s' := by
  unfold attempt
  split
  case h_1 t' h =>
    obtain ⟨file, s', -, hfile, readable, -, rfl⟩ := of_applyTo_eq_ok h
    obtain ⟨file', hfile', readable', rfl⟩ := Tree.readText_eq_ok_iff.1 before
    by_cases hp : p = f.target root
    · exact ⟨_, Tree.readText_eq_ok_iff.2 ⟨{ file with bytes := encode s' },
        by rw [Tree.node?_set_file hfile, if_pos hp], readable, rfl⟩⟩
    · exact ⟨_, Tree.readText_eq_ok_iff.2
        ⟨file', by rw [Tree.node?_set_file hfile, if_neg hp, hfile'], readable', rfl⟩⟩
  case h_2 => exact ⟨s, before⟩

theorem exists_readText_applyAll {s : List Char} (root : Path) (fs : List Fix)
    (before : t.readText p = .ok s) : ∃ s', (applyAll root t fs).readText p = .ok s' := by
  induction fs generalizing t s with
  | nil => exact ⟨s, before⟩
  | cons f fs ih =>
    obtain ⟨s', hs'⟩ := exists_readText_attempt root f before
    exact ih hs'

theorem writable_of_applyTo (h : f.applyTo root t = .ok t') (before : t.Writable p) : t'.Writable p := by
  obtain ⟨file, s', -, hfile, -, -, rfl⟩ := of_applyTo_eq_ok h
  intro file' hfile'
  rw [Tree.node?_set_file hfile] at hfile'
  split at hfile'
  case isTrue hp =>
    cases hfile'
    exact before file (hp ▸ hfile)
  case isFalse => exact before file' hfile'

theorem Fits.exists_applyTo (h : f.Fits root t) : ∃ t', f.applyTo root t = .ok t' := by
  obtain ⟨s, i, read, hi, hlt⟩ := h.there
  obtain ⟨t', ht', -⟩ := exists_applyTo_eq_ok h.inside read h.writable
    (replaceLine_eq_some_iff.2 ⟨i, hi, hlt, rfl⟩)
  exact ⟨t', ht'⟩

theorem Fits.after (hg : g.Fits root t) (hf : f.Fits root t) (spares : Spares root f g)
    (h : f.applyTo root t = .ok t') : g.Fits root t' := by
  obtain ⟨s, j, read, hj, hlt⟩ := hg.there
  have step : attempt root t f = t' := by rw [attempt, h]
  obtain ⟨s', read'⟩ := exists_readText_attempt root f read
  rw [step] at read'
  obtain ⟨s₀, read₀, hlines⟩ := lines_of_applyTo h read'
  cases read.symm.trans read₀
  refine ⟨hg.inside, ⟨s', j, read', hj, ?_⟩, writable_of_applyTo h hg.writable⟩
  by_cases same : f.target root = g.target root
  · obtain ⟨s₁, i, read₁, hi, hlt₁⟩ := hf.there
    rw [same] at read₁
    cases read.symm.trans read₁
    have he : f.edit? = some ⟨i, lines f.fixed.toList, lines_ne_nil _⟩ := by rw [edit?, hi]; rfl
    have he' : g.edit? = some ⟨j, lines g.fixed.toList, lines_ne_nil _⟩ := by rw [edit?, hj]; rfl
    have one : edits root (g.target root) [f] = [⟨i, lines f.fixed.toList, lines_ne_nil _⟩] := by
      simp [edits, same, he]
    rw [hlines, one]
    exact (spares.before same he he').lt_length hlt₁ hlt
  · have none : edits root (g.target root) [f] = [] := by simp [edits, same]
    rw [hlines, none]
    exact hlt

theorem failures_eq_nil (fits : ∀ f ∈ fs, f.Fits root t) (order : fs.Pairwise (Spares root)) :
    failures root t fs = [] := by
  induction fs generalizing t with
  | nil => rfl
  | cons f fs ih =>
    rw [List.forall_mem_cons] at fits
    rw [List.pairwise_cons] at order
    obtain ⟨t', ht'⟩ := fits.1.exists_applyTo
    have rest := ih (fun g hg => (fits.2 g hg).after fits.1 (order.1 g hg) ht') order.2
    simpa [failures, outcomes, ht'] using rest

/-- Every edit of the file at `p` is to one of its lines. -/
theorem index_lt_of_mem_edits {s : List Char} (fits : ∀ f ∈ fs, f.Fits root t)
    (read : t.readText p = .ok s) : ∀ e ∈ edits root p fs, e.index < (lines s).length := by
  intro e he
  simp only [edits, List.mem_filterMap, List.mem_filter, decide_eq_true_eq] at he
  obtain ⟨f, ⟨hf, rfl⟩, he⟩ := he
  obtain ⟨s', i, read', hi, hlt⟩ := (fits f hf).there
  cases read.symm.trans read'
  rw [edit?, hi] at he
  cases he
  exact hlt

end Steps

end Fix

/-- Fixes that name lines of files as they are, in order, are all applied, and each file comes to its text
with all these lines replaced at once. -/
theorem World.applyFixes_atOnce {root : Path} {w : World} {fs : List Fix}
    (fits : ∀ f ∈ fs, f.Fits root w.tree)
    (order : ∀ p, Fix.InOrder (fs.filter (·.target root = p))) :
    ((applyFixes root fs).run w).1 = .ok true ∧ Fix.failures root w.tree fs = [] ∧
      ∀ p s, w.tree.readText p = .ok s →
        ((applyFixes root fs).run w).2.tree.readText p = .ok (Fix.appliedAtOnce root p fs s) := by
  have spares := Fix.pairwise_spares order
  have done := Fix.failures_eq_nil fits spares
  obtain ⟨answer, tree⟩ := applyFixes_eq root fs w
  refine ⟨by rw [answer, done]; rfl, done, fun p s read => ?_⟩
  obtain ⟨s', read'⟩ := Fix.exists_readText_applyAll root fs read
  obtain ⟨s₀, read₀, hlines⟩ := Fix.lines_of_applyAll done read'
  cases read.symm.trans read₀
  rw [tree, read', ← unlines_lines s', hlines, edited_eq_editedAtOnce (Fix.pairwise_before_edits spares p)
    (Fix.index_lt_of_mem_edits fits read), Fix.unlines_editedAtOnce]

namespace Interleaved

/-! Fixes of two files take turns, and each file is named on a detour once: one is mended from its last
line up, and grows; the other one from its first line down. -/

def root : Path := ["p".toList]

def first : Path := ["p".toList, "a.php".toList]

def second : Path := ["p".toList, "b.php".toList]

def world : World :=
  { Shown.world with
    tree := ⟨[(first, .file ⟨encode "1\n2\n3".toList, true, true⟩),
      (second, .file ⟨encode "x\ny\n".toList, true, true⟩)]⟩ }

def fixes : List Fix :=
  [⟨"a.php", 3, "3", "3a\n3b"⟩, ⟨"b.php", 1, "x", "X"⟩, ⟨"./a.php", 1, "1", "1a\n1b"⟩,
    ⟨"b/../b.php", 2, "y", ""⟩]

theorem targets : ∀ f ∈ fixes, f.target root = first ∨ f.target root = second := by decide +kernel

theorem writable (p : Path) : world.tree.Writable p := by
  intro f hf
  have := Tree.lookup_of_node?_file hf
  simp only [world, Tree.lookup_cons_eq] at this
  split at this
  · cases this
    rfl
  · split at this
    · cases this
      rfl
    · cases this

theorem readText_first : world.tree.readText first = .ok "1\n2\n3".toList := by decide +kernel

theorem readText_second : world.tree.readText second = .ok "x\ny\n".toList := by decide +kernel

theorem fits : ∀ f ∈ fixes, f.Fits root world.tree := by
  intro f hf
  simp only [fixes, List.mem_cons, List.not_mem_nil, or_false] at hf
  rcases hf with rfl | rfl | rfl | rfl
  · exact ⟨by decide +kernel, ⟨_, 2, readText_first, by decide +kernel, by decide +kernel⟩, writable _⟩
  · exact ⟨by decide +kernel, ⟨_, 0, readText_second, by decide +kernel, by decide +kernel⟩, writable _⟩
  · exact ⟨by decide +kernel, ⟨_, 0, readText_first, by decide +kernel, by decide +kernel⟩, writable _⟩
  · exact ⟨by decide +kernel, ⟨_, 1, readText_second, by decide +kernel, by decide +kernel⟩, writable _⟩

theorem inOrder (p : Path) : Fix.InOrder (fixes.filter (·.target root = p)) := by
  by_cases ha : p = first
  · exact ha ▸ .inl (by decide +kernel)
  by_cases hb : p = second
  · exact hb ▸ .inr (by decide +kernel)
  · have none : fixes.filter (·.target root = p) = [] := by
      refine List.filter_eq_nil_iff.2 fun f hf hp => ?_
      have hp := of_decide_eq_true hp
      exact (targets f hf).elim (fun h => ha (hp.symm.trans h)) fun h => hb (hp.symm.trans h)
    rw [none]
    exact .inl .nil

theorem both_mended : ((World.applyFixes root fixes).run world).1 = .ok true ∧
    ((World.applyFixes root fixes).run world).2.tree.readText first = .ok "1a\n1b\n2\n3a\n3b".toList ∧
    ((World.applyFixes root fixes).run world).2.tree.readText second = .ok "X\n\n".toList := by
  obtain ⟨done, -, mended⟩ := World.applyFixes_atOnce fits inOrder
  refine ⟨done, (mended first _ readText_first).trans ?_, (mended second _ readText_second).trans ?_⟩
  · exact congrArg _ (by decide +kernel)
  · exact congrArg _ (by decide +kernel)

end Interleaved

end Mender
