import Mender.Fix.Apply
import Mender.Proofs.Tree.Containment
import Mender.Proofs.Tree.Files

/-! Why a fix is not applied: its file is outside the project, or is not there, or cannot be read or
written, or has no line of that number. Nothing else keeps a fix from being applied. -/

namespace Mender.Fix

open Mender.Text

variable {root : Path} {t : Tree} {f : Fix} {s : List Char} {o : Obstacle}

section ReplaceLine

variable {line : Number} {k : Nat}

theorem replaceLine_eq_set (fixed : List Char) (hk : line.toNat? = some k) (low : 1 ≤ k)
    (high : k ≤ (lines s).length) :
    replaceLine s line fixed = some (unlines ((lines s).set (k - 1) fixed)) := by
  obtain ⟨i, rfl⟩ := Nat.exists_eq_add_of_le' low
  rw [replaceLine, hk]
  exact if_pos high

theorem replaceLine_eq_none (fixed : List Char)
    (h : ¬ ∃ k, line.toNat? = some k ∧ 1 ≤ k ∧ k ≤ (lines s).length) :
    replaceLine s line fixed = none := by
  unfold replaceLine
  split
  case h_1 i hi => exact if_neg fun high => h ⟨i + 1, hi, Nat.le_add_left 1 i, high⟩
  case h_2 => rfl

end ReplaceLine

theorem contains_target_iff : Path.contains root (f.target root) = true ↔ root <+: f.target root :=
  Path.contains_resolve_iff root f.file.toList

/-- A fix inside the project, to a file that can be read, comes to what replacing the line comes to. -/
theorem applyTo_of_readText (inside : root <+: f.target root) (read : t.readText (f.target root) = .ok s) :
    f.applyTo root t =
      match replaceLine s f.line f.fixed.toList with
      | some s' => (t.writeText (f.target root) s').mapError (.file (f.target root).toText)
      | none => .error (.outOfRange f.line (lines s).length) := by
  obtain ⟨file, hfile, -, -⟩ := Tree.readText_eq_ok_iff.1 read
  have there : t.exists? (f.target root) = true := by rw [Tree.exists?, hfile]; rfl
  simp only [applyTo, contains_target_iff.2 inside, there, read]
  rfl

theorem applyTo_of_named {k : Nat} (inside : root <+: f.target root)
    (read : t.readText (f.target root) = .ok s) (named : f.line.toNat? = some k) (low : 1 ≤ k)
    (high : k ≤ (lines s).length) :
    f.applyTo root t =
      (t.writeText (f.target root) (unlines ((lines s).set (k - 1) f.fixed.toList))).mapError
        (.file (f.target root).toText) := by
  rw [applyTo_of_readText inside read, replaceLine_eq_set _ named low high]

inductive Hinders (root : Path) (t : Tree) (f : Fix) : Obstacle → Prop where
  | outside (outside : ¬ root <+: f.target root) : Hinders root t f .outside
  | notFound (inside : root <+: f.target root) (absent : t.exists? (f.target root) = false) :
      Hinders root t f .notFound
  | unread {fault : FileFault} (inside : root <+: f.target root) (there : t.exists? (f.target root) = true)
      (read : t.readText (f.target root) = .error fault) :
      Hinders root t f (.file (f.target root).toText fault)
  | outOfRange {s : List Char} (inside : root <+: f.target root)
      (read : t.readText (f.target root) = .ok s)
      (noLine : ¬ ∃ k, f.line.toNat? = some k ∧ 1 ≤ k ∧ k ≤ (lines s).length) :
      Hinders root t f (.outOfRange f.line (lines s).length)
  /-- The file can be read, and has the line, but what it is to hold cannot be written. -/
  | unwritten {s : List Char} {k : Nat} {fault : FileFault} (inside : root <+: f.target root)
      (read : t.readText (f.target root) = .ok s)
      (named : f.line.toNat? = some k) (low : 1 ≤ k) (high : k ≤ (lines s).length)
      (write : t.writeText (f.target root) (unlines ((lines s).set (k - 1) f.fixed.toList)) =
        .error fault) :
      Hinders root t f (.file (f.target root).toText fault)

theorem applyTo_of_hinders (h : Hinders root t f o) : f.applyTo root t = .error o := by
  cases h with
  | outside outside =>
    have contained : Path.contains root (f.target root) = false :=
      eq_false_of_ne_true fun contained => outside (contains_target_iff.1 contained)
    simp only [applyTo, contained]
    rfl
  | notFound inside absent =>
    simp only [applyTo, contains_target_iff.2 inside, absent]
    rfl
  | unread inside there read =>
    simp only [applyTo, contains_target_iff.2 inside, there, read]
    rfl
  | outOfRange inside read noLine => rw [applyTo_of_readText inside read, replaceLine_eq_none _ noLine]
  | unwritten inside read named low high write =>
    rw [applyTo_of_named inside read named low high, write]
    rfl

theorem applied_or_hindered (root : Path) (t : Tree) (f : Fix) :
    (∃ t', f.applyTo root t = .ok t') ∨ ∃ o, Hinders root t f o := by
  by_cases inside : root <+: f.target root
  case neg => exact .inr ⟨_, .outside inside⟩
  cases there : t.exists? (f.target root) with
  | false => exact .inr ⟨_, .notFound inside there⟩
  | true =>
  cases read : t.readText (f.target root) with
  | error fault => exact .inr ⟨_, .unread inside there read⟩
  | ok s =>
  by_cases line : ∃ k, f.line.toNat? = some k ∧ 1 ≤ k ∧ k ≤ (lines s).length
  case neg => exact .inr ⟨_, .outOfRange inside read line⟩
  obtain ⟨k, named, low, high⟩ := line
  cases write : t.writeText (f.target root) (unlines ((lines s).set (k - 1) f.fixed.toList)) with
  | error fault => exact .inr ⟨_, .unwritten inside read named low high write⟩
  | ok t' =>
    refine .inl ⟨t', ?_⟩
    rw [applyTo_of_named inside read named low high, write]
    rfl

theorem applyTo_eq_error_iff : f.applyTo root t = .error o ↔ Hinders root t f o := by
  refine ⟨fun h => ?_, applyTo_of_hinders⟩
  rcases applied_or_hindered root t f with ⟨t', ok⟩ | ⟨o', hinders⟩
  · cases h.symm.trans ok
  · cases h.symm.trans (applyTo_of_hinders hinders)
    exact hinders

/-- A fix is refused as one outside the project for no other reason than its place. -/
theorem applyTo_eq_outside_iff :
    f.applyTo root t = .error .outside ↔ Path.contains root (f.target root) = false := by
  rw [applyTo_eq_error_iff, ← Bool.not_eq_true, contains_target_iff]
  refine ⟨fun h => ?_, .outside⟩
  cases h with
  | outside outside => exact outside

end Mender.Fix
