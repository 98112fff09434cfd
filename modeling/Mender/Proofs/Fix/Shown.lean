import Mender.Proofs.Fix.Obstacles
import Mender.Proofs.Prompt.Files
import Mender.Proofs.Session.LineNumbers
import Mender.Proofs.World.Crew

/-! What is shown of a file is what a fix replaces in it. A request shows the lines of a file behind
their numbers; a fix is applied exactly if it names one of these numbers, and what it replaces is the
text in that row. -/

namespace Mender

open Mender.Text Mender.Prompt

/-- The file at a place, if there is one, may be written. -/
def Tree.Writable (t : Tree) (p : Path) : Prop := ∀ f, t.node? p = some (.file f) → f.writable = true

namespace Fix

variable {root : Path} {t : Tree} {f : Fix} {s : List Char}

theorem unlines_rowsOf_set (s fixed : List Char) (i : Nat) :
    unlines ((lines s).set i fixed) =
      unlines ((rowsOf s).map fun row => if row.number = i + 1 then fixed else row.text) := by
  congr 1
  refine List.ext_getElem (by simp [rowsOf]) fun j _ _ => ?_
  simp [rowsOf, List.getElem_set, eq_comm]

theorem replaceLine_eq_some (fixed : List Char) {line : Number} {k : Nat} (hk : line.toNat? = some k)
    (low : 1 ≤ k) (high : k ≤ (lines s).length) :
    replaceLine s line fixed =
      some (unlines ((rowsOf s).map fun row => if row.number = k then fixed else row.text)) := by
  obtain ⟨i, rfl⟩ := Nat.exists_eq_add_of_le' low
  rw [replaceLine_eq_set fixed hk low high, Nat.add_sub_cancel, unlines_rowsOf_set]

theorem exists_applyTo_eq_ok {s' : List Char} (inside : root <+: f.target root)
    (read : t.readText (f.target root) = .ok s) (writable : t.Writable (f.target root))
    (replaced : replaceLine s f.line f.fixed.toList = some s') :
    ∃ t', f.applyTo root t = .ok t' ∧ t'.readText (f.target root) = .ok s' := by
  obtain ⟨file, hfile, readable, -⟩ := Tree.readText_eq_ok_iff.1 read
  refine ⟨t.set (f.target root) (.file { file with bytes := encode s' }), ?_, ?_⟩
  · rw [applyTo_of_readText inside read, replaced]
    dsimp only
    rw [Tree.writeText_file hfile, writable file hfile]
    rfl
  · exact Tree.readText_eq_ok_iff.2 ⟨_, Tree.node?_set_self _ _ _, readable, decode_encode s'⟩

end Fix

/-- What applying a fix comes to, if these are the rows of its file: it succeeds if the fix names one of
them, and then the text in that row is replaced. -/
structure Fix.Replaces (f : Fix) (root : Path) (rows : List Row) (t : Tree)
    (result : Except Failure Bool × Tree) : Prop where
  done_iff : result.1 = .ok true ↔ ∃ k, f.line.toNat? = some k ∧ 1 ≤ k ∧ k ≤ rows.length
  replaced : result.1 = .ok true → ∀ k, f.line.toNat? = some k →
    result.2.readText (f.target root) =
      .ok (unlines (rows.map fun row => if row.number = k then f.fixed.toList else row.text))
  kept : result.1 ≠ .ok true → result.1 = .ok false ∧ result.2 = t

namespace World

variable {root : Path}

theorem applyFixes_singleton (f : Fix) (w : World) :
    (((applyFixes root [f]).run w).1, ((applyFixes root [f]).run w).2.tree) =
      match f.applyTo root w.tree with
      | .ok t => (.ok true, t)
      | .error _ => (.ok false, w.tree) := by
  obtain ⟨answer, tree⟩ := applyFixes_eq root [f] w
  rw [answer, tree]
  cases h : f.applyTo root w.tree <;>
    simp [Fix.failures, Fix.outcomes, Fix.applyAll, Fix.attempt, h]

theorem replaces_applyFixes {f : Fix} {s : List Char} {w : World} (inside : root <+: f.target root)
    (read : w.tree.readText (f.target root) = .ok s) (writable : w.tree.Writable (f.target root)) :
    f.Replaces root (rowsOf s) w.tree
      (((applyFixes root [f]).run w).1, ((applyFixes root [f]).run w).2.tree) := by
  have length : (rowsOf s).length = (lines s).length := List.length_mapIdx
  rw [applyFixes_singleton]
  by_cases named : ∃ k, f.line.toNat? = some k ∧ 1 ≤ k ∧ k ≤ (lines s).length
  · obtain ⟨k, hk, low, high⟩ := named
    have replaced := Fix.replaceLine_eq_some f.fixed.toList hk low high
    obtain ⟨t, ht, after⟩ := Fix.exists_applyTo_eq_ok inside read writable replaced
    rw [ht]
    refine ⟨⟨fun _ => ?_, fun _ => rfl⟩, fun _ k' hk' => ?_, fun h => absurd rfl h⟩
    · exact ⟨k, hk, low, length ▸ high⟩
    · rw [hk] at hk'
      cases hk'
      exact after
  · rw [Fix.applyTo_of_hinders (.outOfRange inside read named)]
    refine ⟨⟨fun h => ?_, fun h => absurd (length ▸ h) named⟩, fun h => ?_, fun _ => ⟨rfl, rfl⟩⟩
    all_goals cases h

/-- What a request shows of a file are its lines, each with its number; and in the same tree a fix to
the file is applied if it names one of these numbers, and replaces the text behind it. -/
theorem applyFixes_shown {b : Batch} {w : World} {file content : String}
    (shown : (Request.ofBatch b ((contents root b.groups.files).run w).1 root.toText).contents.lookup file =
      some content)
    (inside : root <+: Path.resolve root file.toList)
    (writable : w.tree.Writable (Path.resolve root file.toList)) :
    ∃ rows, rows? (numberLines content.toList) = some rows ∧
      rows.map Row.number = List.range' 1 rows.length ∧
      unlines (rows.map Row.text) = content.toList ∧
      ∀ (v : World) (line : Number) (before fixed : String), v.tree = w.tree →
        let f : Fix := ⟨file, line, before, fixed⟩
        f.Replaces root rows v.tree
          (((applyFixes root [f]).run v).1, ((applyFixes root [f]).run v).2.tree) := by
  have read : w.tree.readText (Path.resolve root file.toList) = .ok content.toList :=
    Tree.readText_of_lookup_contents (by rw [← contents_eq]; exact shown)
  refine ⟨rowsOf content.toList, rows?_numberLines _, ?_, ?_, fun v line before fixed same => ?_⟩
  · rw [map_number_rowsOf, rowsOf, List.length_mapIdx]
  · rw [map_text_rowsOf, unlines_lines]
  · exact replaces_applyFixes inside (same ▸ read) (same ▸ writable)

end World

namespace Shown

/-! A file with a carriage return, a byte that is no text and no line feed at its end, named on a
detour: its second line is replaced, and there is no third. -/

def root : Path := ["p".toList]

def place : Path := ["p".toList, "a.php".toList]

def bytes : List UInt8 := encode "one\r\n".toList ++ [0xFF]

def world : World where
  tree := ⟨[(place, .file ⟨bytes, true, true⟩)]⟩
  directory := []
  environment := []
  debug := false
  exits := ⟨⟨none, none, none, none⟩, []⟩
  replies := ⟨.ok "", []⟩
  cache := .empty
  trace := []

def batch : Batch := ⟨⟨0, 1, 1, false⟩, [("b/../a.php", [])]⟩

def mending (line : Number) : Fix := ⟨"b/../a.php", line, "", "two\nthree"⟩

theorem lookup_contents :
    (Request.ofBatch batch ((World.contents root batch.groups.files).run world).1 root.toText).contents.lookup
      "b/../a.php" = some "one\r\n\uFFFD" := by decide +kernel

theorem writable : world.tree.Writable (Path.resolve root "b/../a.php".toList) := by
  intro f hf
  have there : world.tree.node? (Path.resolve root "b/../a.php".toList) =
      some (.file ⟨bytes, true, true⟩) := by decide +kernel
  rw [there] at hf
  cases hf
  rfl

theorem rows_shown : rows? (numberLines "one\r\n\uFFFD".toList) =
    some [⟨1, "one\r".toList⟩, ⟨2, "\uFFFD".toList⟩] := by decide +kernel

theorem second_replaced :
    ((World.applyFixes root [mending 2]).run world).1 = .ok true ∧
      ((World.applyFixes root [mending 2]).run world).2.tree.readText place =
        .ok "one\r\ntwo\nthree".toList ∧
      ((World.applyFixes root [mending 3]).run world).1 = .ok false := by
  obtain ⟨rows, read, -, -, replaces⟩ := World.applyFixes_shown lookup_contents (by decide +kernel) writable
  rw [rows_shown] at read
  cases read
  have second := replaces world 2 "" "two\nthree" rfl
  have third := replaces world 3 "" "two\nthree" rfl
  have done := second.done_iff.2 ⟨2, by decide +kernel⟩
  refine ⟨done, second.replaced done 2 (by decide +kernel), (third.kept fun done => ?_).1⟩
  obtain ⟨k, hk, -, high⟩ := third.done_iff.1 done
  have three : Number.toNat? 3 = some 3 := by decide +kernel
  rw [three] at hk
  cases hk
  exact absurd high (by decide)

end Shown

end Mender
