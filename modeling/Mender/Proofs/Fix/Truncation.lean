import Mender.Fix.Answer
import Mender.Proofs.Markup.Element

/-! Answers that were cut off. What is left of an answer has the first fixes of the whole answer and no
others: a block counts only from its closing tag on, and what is cut off can close the section but not
give it other blocks. -/

namespace Mender.Answer

open Mender.Text Mender.Markup

/-- No block begins before the section; nothing is asked of an answer without a section that is closed. -/
def StartsWithSection (answer : List Char) : Prop :=
  ∀ before inner after, answer = before ++ (written "fixes".toList inner ++ after) →
    ¬ openingTag "fixes".toList <:+: before → ¬ openingTag "fix".toList <:+: before

variable {answer part : List Char}

theorem scope_of_some {inner after : List Char}
    (h : element? "fixes".toList answer = some (inner, after)) : scope answer = inner := by
  rw [scope, h]
  rfl

theorem scope_of_none (h : element? "fixes".toList answer = none) : scope answer = answer := by
  rw [scope, h]
  rfl

/-- An answer that ends before its section does, looked through as a whole, has no blocks that are not in
the section. -/
theorem elements_isPrefix_inner {inner after : List Char} (first : StartsWithSection answer)
    (whole : element? "fixes".toList answer = some (inner, after)) (cut : part <+: answer)
    (unclosed : element? "fixes".toList part = none) :
    elements "fix".toList part <+: elements "fix".toList inner := by
  obtain ⟨before, rest, hopen, hclose⟩ := element?_eq_some_iff.1 whole
  have unopened : ¬ openingTag "fixes".toList <:+: before :=
    not_infix_of_cut? (openingTag_ne_nil _) hopen
  have alone : ¬ closingTag "fixes".toList <:+: inner :=
    not_infix_of_cut? (openingTag_ne_nil _) hclose
  have split : answer = before ++ (written "fixes".toList inner ++ after) := by
    rw [eq_of_cut? hopen, eq_of_cut? hclose, written]
    simp only [List.append_assoc]
  -- the section without the angle that ends it
  let stump := before ++ (openingTag "fixes".toList ++ (inner ++ "</fixes".toList))
  have full : before ++ written "fixes".toList inner = stump ++ ['>'] := by
    simp [stump, written, closingTag]
  have complete : ¬ before ++ written "fixes".toList inner <+: part := by
    rintro ⟨more, rfl⟩
    rw [List.append_assoc, element?_written (by decide) unopened alone] at unclosed
    cases unclosed
  have short : part <+: stump := by
    rw [split, ← List.append_assoc] at cut
    rcases List.prefix_or_prefix_of_prefix cut (List.prefix_append _ after) with inside | beyond
    · rw [full, List.prefix_concat_iff, ← full] at inside
      exact inside.resolve_left fun heq => complete (heq ▸ List.prefix_refl _)
    · exact absurd beyond complete
  have same : elements "fix".toList stump = elements "fix".toList inner := by
    rw [elements_append_openingTag (by decide) (by decide) (by decide) (first _ _ _ split unopened),
      elements_append_of_no_greater (by decide)]
  rw [← same]
  exact elements_isPrefix short

theorem blocks_isPrefix (first : StartsWithSection answer) (cut : part <+: answer) :
    blocks part <+: blocks answer := by
  refine List.IsPrefix.map readBlock ?_
  cases hpart : element? "fixes".toList part with
  | some p =>
    obtain ⟨more, rfl⟩ := cut
    rw [scope_of_some hpart, scope_of_some (element?_append hpart more)]
  | none =>
    rw [scope_of_none hpart]
    cases hanswer : element? "fixes".toList answer with
    | some p =>
      rw [scope_of_some hanswer]
      exact elements_isPrefix_inner first hanswer cut hpart
    | none =>
      rw [scope_of_none hanswer]
      exact elements_isPrefix cut

/-- Cutting an answer off drops fixes from its end, and does nothing else to them. -/
theorem fixes_isPrefix (first : StartsWithSection answer) (cut : part <+: answer) :
    fixes part <+: fixes answer :=
  List.IsPrefix.filterMap Except.toOption (blocks_isPrefix first cut)

namespace CutOff

/-! An answer of two fixes that ends inside of the tag that closes the second one. -/

def first : List Char := "<fix><file>a.php</file><line>3</line><fixed>three</fixed></fix>".toList

def second : List Char := "<fix><file>a.php</file><line>1</line><fixed>one</fixed></fix>".toList

def whole : List Char := "Done.\n<fixes>".toList ++ (first ++ (second ++ "</fixes>".toList))

def cut : List Char := "Done.\n<fixes>".toList ++ (first ++ second.dropLast)

theorem startsWithSection_whole : StartsWithSection whole := by
  intro before inner after split unopened
  have found := cut?_openingTag (by decide) unopened
    (inner ++ (closingTag "fixes".toList ++ after))
  have there : cut? (openingTag "fixes".toList) whole =
      some ("Done.\n".toList, first ++ (second ++ "</fixes>".toList)) := by decide +kernel
  rw [split, written, List.append_assoc, List.append_assoc, found] at there
  obtain ⟨rfl, -⟩ := Prod.mk.inj (Option.some.inj there)
  decide +kernel

theorem one_left : fixes cut = [⟨"a.php", 3, "", "three"⟩] ∧ fixes cut <+: fixes whole :=
  ⟨by decide +kernel, fixes_isPrefix startsWithSection_whole (by decide +kernel)⟩

/-- A block before the section would count only as long as the section is not closed. -/
example : fixes (first ++ "<fixes>".toList) = [⟨"a.php", 3, "", "three"⟩] ∧
    fixes (first ++ "<fixes></fixes>".toList) = [] := by decide +kernel

end CutOff

end Mender.Answer
