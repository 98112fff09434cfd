import Mender.Proofs.Fix.Answer

/-! Blocks do not disturb each other. Whatever a block holds, as long as it is no tag that closes it or all
of them, and whatever stands between two blocks, each is read as if it were alone: as one fix, or as none
and with its own issues. -/

namespace Mender.Answer

open Mender.Text Mender.Markup

/-- What a block may hold: anything but the tags that close it, or all blocks. -/
structure Body where
  chars : List Char
  unclosed : ¬ closingTag "fix".toList <:+: chars
  within : ¬ closingTag "fixes".toList <:+: chars

/-- What may stand beside a block: anything in which no block begins and the blocks do not end. -/
structure Filler where
  chars : List Char
  unopened : ¬ openingTag "fix".toList <:+: chars
  within : ¬ closingTag "fixes".toList <:+: chars

def Body.block (b : Body) : List Char := written "fix".toList b.chars

/-- Blocks, and what stands after each of them. -/
def rowText (rows : List (Body × Filler)) : List Char := rows.flatMap fun r => r.1.block ++ r.2.chars

section Row

variable (lead : Filler) (rows : List (Body × Filler))

theorem head?_rowText : ∀ c ∈ (rowText rows).head?, c = '<' := by
  cases rows with
  | nil => nofun
  | cons r rows => exact fun c hc => (Option.some.inj hc).symm

theorem within_rowText : ¬ closingTag "fixes".toList <:+: lead.chars ++ rowText rows := by
  induction rows generalizing lead with
  | nil => rw [rowText, List.flatMap_nil, List.append_nil]; exact lead.within
  | cons r rows ih =>
    have row : ¬ closingTag "fixes".toList <:+: rowText (r :: rows) := by
      rw [rowText, List.flatMap_cons, List.append_assoc]
      exact not_infix_written_append (by decide) (by decide) (by decide) (by decide) r.1.within (ih r.2)
    exact not_infix_append (by decide) lead.within row (head?_rowText _)

/-- Each block is found where it begins, and the next ones are looked for behind it. -/
theorem elements_rowText :
    elements "fix".toList (lead.chars ++ rowText rows) = rows.map (·.1.chars) := by
  induction rows generalizing lead with
  | nil =>
    rw [rowText, List.flatMap_nil, List.append_nil]
    exact elements_of_none (element?_eq_none lead.unopened)
  | cons r rows ih =>
    have first := element?_written (by decide) lead.unopened r.1.unclosed (r.2.chars ++ rowText rows)
    rw [rowText, List.flatMap_cons, List.append_assoc, List.map_cons, ← ih r.2]
    exact elements_of_some first

theorem blocks_rowText :
    blocks (written "fixes".toList (lead.chars ++ rowText rows)) = rows.map (readBlock ·.1.chars) := by
  have found := element?_written (by decide) Frame.unopened_nil (within_rowText lead rows) []
  rw [List.nil_append, List.append_nil] at found
  rw [blocks, scope, found, Option.map_some, Option.getD_some, elements_rowText, List.map_map]
  rfl

end Row

/-- A block alone is read as what it holds, even if that opens the blocks once more. -/
theorem blocks_block (b : Body) : blocks b.block = [readBlock b.chars] := by
  have within : ¬ closingTag "fixes".toList <:+: b.block := by
    rw [Body.block, ← List.append_nil (written _ _)]
    exact not_infix_written_append (by decide) (by decide) (by decide) (by decide) b.within (by decide)
  have alone := elements_rowText ⟨[], by decide, by decide⟩ [(b, ⟨[], by decide, by decide⟩)]
  rw [blocks, scope, element?_eq_none_of_unclosed within, Option.map_none, Option.getD_none]
  simpa [rowText, Body.block] using congrArg (List.map readBlock) alone

theorem blocks_eq_flatMap (lead : Filler) (rows : List (Body × Filler)) :
    blocks (written "fixes".toList (lead.chars ++ rowText rows)) = rows.flatMap (blocks ·.1.block) := by
  rw [blocks_rowText, List.map_eq_flatMap]
  simp only [blocks_block]

/-- Each block of an answer is read as if it were alone: as one fix, or as none and with its own issues. -/
theorem fixes_isolated (lead : Filler) (rows : List (Body × Filler)) :
    let answer := written "fixes".toList (lead.chars ++ rowText rows)
    fixes answer = rows.flatMap (fixes ·.1.block) ∧ skipped answer = rows.flatMap (skipped ·.1.block) ∧
      ∀ b : Body, (∃ f, fixes b.block = [f] ∧ skipped b.block = []) ∨
        ∃ issues, fixes b.block = [] ∧ skipped b.block = [issues] := by
  refine ⟨?_, ?_, fun b => ?_⟩
  · rw [fixes, blocks_eq_flatMap, List.filterMap_flatMap]
    rfl
  · rw [skipped, blocks_eq_flatMap, List.filterMap_flatMap]
    rfl
  · rw [fixes, skipped, blocks_block]
    cases readBlock b.chars with
    | ok f => exact .inl ⟨f, rfl, rfl⟩
    | error issues => exact .inr ⟨issues, rfl, rfl⟩

namespace Between

/-! A block with tags that open blocks once more, and no good line or new text, between two good ones. -/

def good : Body :=
  ⟨"<file>a.php</file><line>1</line><fixed>one</fixed>".toList, by decide +kernel, by decide +kernel⟩

def malformed : Body :=
  ⟨"<fixes><fix><file>b.php</file><line>two</line><fixed>".toList, by decide +kernel, by decide +kernel⟩

def late : Body :=
  ⟨"<fixed></fixed><line>3</line><file>c.php</file>".toList, by decide +kernel, by decide +kernel⟩

def heading : Filler := ⟨"Fixes: <fixes>".toList, by decide +kernel, by decide +kernel⟩

def stray : Filler := ⟨"</fixed></fix> <fi".toList, by decide +kernel, by decide +kernel⟩

theorem malformed_skipped :
    let answer := written "fixes".toList
      (heading.chars ++ rowText [(good, stray), (malformed, stray), (late, heading)])
    fixes answer = [⟨"a.php", 1, "", "one"⟩, ⟨"c.php", 3, "", ""⟩] ∧
      skipped answer = [[.lineNotNumber, .fixedMissing]] := by
  have first : readBlock good.chars = .ok ⟨"a.php", 1, "", "one"⟩ := by decide +kernel
  have second : readBlock malformed.chars = .error [.lineNotNumber, .fixedMissing] := by decide +kernel
  have third : readBlock late.chars = .ok ⟨"c.php", 3, "", ""⟩ := by decide +kernel
  obtain ⟨read, none, -⟩ := fixes_isolated heading [(good, stray), (malformed, stray), (late, heading)]
  refine ⟨read.trans ?_, none.trans ?_⟩
  · simp only [fixes, blocks_block, List.flatMap_cons, first, second, third]
    rfl
  · simp only [skipped, blocks_block, List.flatMap_cons, first, second, third]
    rfl

end Between

end Mender.Answer
