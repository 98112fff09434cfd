import Mender.Proofs.Fix.Shown
import Mender.Proofs.Text.Bytes

/-! A fix is to change the bytes of its line and no others. But the whole file is read as text and
written again, so a byte that spells nothing is replaced wherever it stands: only a file whose other
lines are all UTF-8 keeps them. -/

namespace Mender

open Mender.Text

namespace Fix

variable {root : Path} {t t' : Tree} {f : Fix}

/-- From `t` to `t'`, the fix, which names line `i` of `file`, changes that file to `bytes`, and nothing
else. -/
structure Rewrites (f : Fix) (root : Path) (t t' : Tree) (file : File) (i : Nat) (bytes : List UInt8) :
    Prop where
  row : f.line.row? = some i
  inRange : i < (byteLines file.bytes).length
  before : t.node? (f.target root) = some (.file file)
  after : t'.node? (f.target root) = some (.file { file with bytes := bytes })
  elsewhere : ∀ p, p ≠ f.target root → t'.node? p = t.node? p

/-- The bytes of the file are those that were there, with those of the line of the fix replaced by what is
written for its text. -/
def ChangesItsLine (f : Fix) (root : Path) (t t' : Tree) : Prop :=
  ∃ file i, f.Rewrites root t t' file i (joinLines ((byteLines file.bytes).set i (encode f.fixed.toList)))

theorem Rewrites.changesItsLine_iff {file : File} {i : Nat} {bytes : List UInt8}
    (h : f.Rewrites root t t' file i bytes) :
    f.ChangesItsLine root t t' ↔
      bytes = joinLines ((byteLines file.bytes).set i (encode f.fixed.toList)) := by
  constructor
  · rintro ⟨file', i', h'⟩
    cases h.before.symm.trans h'.before
    cases h.row.symm.trans h'.row
    have same := h.after.symm.trans h'.after
    injection same with same
    injection same with same
    injection same
  · rintro rfl
    exact ⟨file, i, h⟩

theorem rewrites_of_applyTo (h : f.applyTo root t = .ok t') :
    ∃ file i, f.Rewrites root t t' file i
      (encode (unlines ((lines (decode file.bytes)).set i f.fixed.toList))) := by
  obtain ⟨file, s, -, hfile, -, hs, rfl⟩ := of_applyTo_eq_ok h
  obtain ⟨i, hi, hlt, rfl⟩ := replaceLine_eq_some_iff.1 hs
  rw [lines_decode, List.length_map] at hlt
  exact ⟨file, i, hi, hlt, hfile, Tree.node?_set_self _ _ _,
    fun p hp => by rw [Tree.node?_set_file hfile, if_neg hp]⟩

/-- A fix that succeeds in its turn is applied to what the fixes before it left. -/
theorem applyTo_of_outcomes {fs gs : List Fix}
    (done : (outcomes root t (fs ++ f :: gs))[fs.length]? = some (f, none)) :
    f.applyTo root (applyAll root t fs) = .ok (applyAll root t (fs ++ [f])) := by
  rw [outcomes_append, List.getElem?_append_right (Nat.le_of_eq (length_outcomes root t fs)),
    length_outcomes, Nat.sub_self, outcomes] at done
  rw [applyAll_append]
  cases h : f.applyTo root (applyAll root t fs) with
  | ok t' =>
    show _ = Except.ok (attempt root (applyAll root t fs) f)
    rw [attempt, h]
  | error obstacle =>
    rw [h] at done
    cases done

end Fix

/-- A fix that succeeds in its turn reads and writes every line of its file, which leaves the other lines
as they were exactly if they are UTF-8. Its own line, the other files and the rest of the tree come to
what they should. -/
theorem World.applyFixes_rewrites {root : Path} {w : World} {fs gs : List Fix} {f : Fix}
    (done : (Fix.outcomes root w.tree (fs ++ f :: gs))[fs.length]? = some (f, none)) :
    ∃ file i,
      f.Rewrites root ((applyFixes root fs).run w).2.tree ((applyFixes root (fs ++ [f])).run w).2.tree file i
        (joinLines (((byteLines file.bytes).map (encode ∘ decode)).set i (encode f.fixed.toList))) ∧
      (f.ChangesItsLine root ((applyFixes root fs).run w).2.tree
          ((applyFixes root (fs ++ [f])).run w).2.tree ↔
        ∀ j l, (byteLines file.bytes)[j]? = some l → j ≠ i → IsUtf8 l) := by
  rw [(applyFixes_eq root fs w).2, (applyFixes_eq root (fs ++ [f]) w).2]
  obtain ⟨file, i, h⟩ := Fix.rewrites_of_applyTo (Fix.applyTo_of_outcomes done)
  refine ⟨file, i, encode_unlines_set file.bytes i f.fixed.toList ▸ h, ?_⟩
  rw [h.changesItsLine_iff, encode_unlines_set_eq_iff h.inRange]

namespace Accented

/-! A comment with an accented letter, in a line that no fix names. In two bytes, as UTF-8 has it, the
letter is kept; in one byte, as Latin-1 has it, it is lost. -/

def root : Path := ["p".toList]

def place : Path := ["p".toList, "a.php".toList]

def bytes (letter : List UInt8) : List UInt8 := encode "<?php\r\n// caf".toList ++ letter

def world (letter : List UInt8) : World :=
  { Shown.world with tree := ⟨[(place, .file ⟨bytes letter, true, true⟩)]⟩ }

/-- A fix that fails comes first. -/
def missing : Fix := ⟨"b.php", 1, "", ""⟩

def mending : Fix := ⟨"a.php", 1, "<?php", "<?php exit;"⟩

def before (letter : List UInt8) : Tree := ((World.applyFixes root [missing]).run (world letter)).2.tree

def after (letter : List UInt8) : Tree :=
  ((World.applyFixes root [missing, mending]).run (world letter)).2.tree

theorem kept : mending.ChangesItsLine root (before [0xC3, 0xA9]) (after [0xC3, 0xA9]) := by
  have done : (Fix.outcomes root (world [0xC3, 0xA9]).tree [missing, mending])[1]? =
      some (mending, none) := by decide +kernel
  obtain ⟨file, i, h, changes_iff⟩ :=
    @World.applyFixes_rewrites root (world [0xC3, 0xA9]) [missing] [] mending done
  have hfile : (before [0xC3, 0xA9]).node? place = some (.file ⟨bytes [0xC3, 0xA9], true, true⟩) := by
    decide +kernel
  cases hfile.symm.trans h.before
  cases (show mending.line.row? = some 0 by decide +kernel).symm.trans h.row
  refine changes_iff.2 fun j l hl hj => ?_
  have second : ∀ l ∈ (byteLines (bytes [0xC3, 0xA9])).tail, l = encode "// café".toList := by
    decide +kernel
  cases j with
  | zero => exact absurd rfl hj
  | succ j =>
    refine ⟨"// café".toList, (second l ?_).symm⟩
    rw [← List.getElem?_tail] at hl
    exact List.mem_of_getElem? hl

theorem lost : (Fix.outcomes root (world [0xE9]).tree [missing, mending])[1]? = some (mending, none) ∧
    (after [0xE9]).node? place = some (.file ⟨encode "<?php exit;\n// caf\uFFFD".toList, true, true⟩) ∧
    ¬ mending.ChangesItsLine root (before [0xE9]) (after [0xE9]) := by
  have hafter : (after [0xE9]).node? place =
      some (.file ⟨encode "<?php exit;\n// caf\uFFFD".toList, true, true⟩) := by decide +kernel
  refine ⟨by decide +kernel, hafter, ?_⟩
  rintro ⟨file, i, h⟩
  have hfile : (before [0xE9]).node? place = some (.file ⟨bytes [0xE9], true, true⟩) := by decide +kernel
  cases hfile.symm.trans h.before
  cases (show mending.line.row? = some 0 by decide +kernel).symm.trans h.row
  have same := hafter.symm.trans h.after
  revert same
  decide +kernel

end Accented

end Mender
