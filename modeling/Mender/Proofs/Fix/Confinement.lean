import Mender.Fix.Apply
import Mender.Proofs.Tree.Containment
import Mender.Proofs.Tree.Files

/-! What fixes can do to a tree, whatever they ask for: they replace the bytes of files that stand at
the root of the project or below it. Nothing comes into being, and nothing goes. -/

namespace Mender

open Mender.Text

namespace Fix

/-- A fix that succeeds replaces the bytes of one file. -/
theorem of_applyTo_eq_ok {root : Path} {f : Fix} {t t' : Tree} (h : f.applyTo root t = .ok t') :
    ∃ file s, Path.contains root (f.target root) = true ∧
      t.node? (f.target root) = some (.file file) ∧ file.readable = true ∧
      replaceLine (decode file.bytes) f.line f.fixed.toList = some s ∧
      t' = t.set (f.target root) (.file { file with bytes := encode s }) := by
  unfold applyTo at h
  dsimp only at h
  split at h
  case isTrue => cases h
  case isFalse hin =>
  split at h
  case isTrue => cases h
  case isFalse =>
  cases hread : t.readText (f.target root) with
  | error fault =>
    rw [hread] at h
    cases h
  | ok before =>
    obtain ⟨file, hfile, hreadable, rfl⟩ := Tree.readText_eq_ok_iff.1 hread
    simp only [hread, Except.mapError, bind, Except.bind] at h
    split at h
    case h_1 s hs =>
      rw [Tree.writeText_file hfile] at h
      cases hw : file.writable with
      | true =>
        simp only [hw, if_true] at h
        obtain rfl := Except.ok.inj h
        exact ⟨file, s, by simpa using hin, hfile, hreadable, hs, by rw [hw]⟩
      | false =>
        simp only [hw] at h
        cases h
    case h_2 => cases h

end Fix

/-- Under `root`, files may have other bytes; the rest of the tree is the same, and nothing came or
went. The one place `spared` is not spoken of. -/
structure Tree.MendedUnder (root : Path) (spared : Option Path) (t t' : Tree) : Prop where
  outside : ∀ p, spared ≠ some p → ¬ root <+: p → t'.node? p = t.node? p
  files : ∀ p, spared ≠ some p → t'.isFile p = t.isFile p
  places : ∀ p, spared ≠ some p → t'.exists? p = t.exists? p

namespace Tree.MendedUnder

variable {root : Path} {spared : Option Path} {t t' t'' : Tree}

theorem refl (t : Tree) : t.MendedUnder root spared t :=
  ⟨fun _ _ _ => rfl, fun _ _ => rfl, fun _ _ => rfl⟩

theorem trans (h : t.MendedUnder root spared t') (h' : t'.MendedUnder root spared t'') :
    t.MendedUnder root spared t'' where
  outside p hs hp := (h'.outside p hs hp).trans (h.outside p hs hp)
  files p hs := (h'.files p hs).trans (h.files p hs)
  places p hs := (h'.places p hs).trans (h.places p hs)

theorem set_file {p : Path} {f g : File} (hp : root <+: p) (h : t.node? p = some (.file f)) :
    t.MendedUnder root spared (t.set p (.file g)) where
  outside q _ hq := by
    rw [Tree.node?_set_file h, if_neg]
    rintro rfl
    exact hq hp
  files q _ := by
    by_cases hq : q = p
    · simp [Tree.isFile, Tree.node?_set_file h, hq, h]
    · simp [Tree.isFile, Tree.node?_set_file h, hq]
  places q _ := by
    by_cases hq : q = p
    · simp [Tree.exists?, Tree.node?_set_file h, hq, h]
    · simp [Tree.exists?, Tree.node?_set_file h, hq]

theorem write {p : Path} {bytes : List UInt8} (h : t.write p bytes = .ok t') :
    t.MendedUnder root (some p) t' := by
  have same (q : Path) (hq : some p ≠ some q) : t'.node? q = t.node? q :=
    Tree.node?_write_of_ne h fun he => hq (he ▸ rfl)
  exact ⟨fun q hq _ => same q hq, fun q hq => by simp only [Tree.isFile, same q hq],
    fun q hq => by simp only [Tree.exists?, same q hq]⟩

end Tree.MendedUnder

namespace Fix

variable {root : Path} {spared : Option Path}

theorem mendedUnder_attempt (t : Tree) (f : Fix) : t.MendedUnder root spared (attempt root t f) := by
  unfold attempt
  split
  case h_1 t' h =>
    obtain ⟨file, s, hin, hfile, -, -, rfl⟩ := of_applyTo_eq_ok h
    exact .set_file (Path.isPrefix_of_contains hin) hfile
  case h_2 => exact .refl t

theorem mendedUnder_applyAll (t : Tree) (fs : List Fix) :
    t.MendedUnder root spared (applyAll root t fs) := by
  induction fs generalizing t with
  | nil => exact .refl t
  | cons f fs ih => exact (mendedUnder_attempt t f).trans (ih _)

end Fix
end Mender
