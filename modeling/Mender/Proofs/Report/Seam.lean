import Mender.Proofs.Report.Reading
import Mender.Proofs.Report.Shape

/-! Reports one below the other. A section reaches to the next boundary, so one that an upper report leaves
open ends where a lower one begins with a boundary, and the two are read as each of them is alone. Only
the last line of the upper report can open a section with what follows it. -/

namespace Mender.Report

open Mender.Text

section Sections

variable {ls more : List Line}

/-- A boundary ends the lines that go before it, if they do not end already. -/
theorem takeWhile_append_of_boundary (begins : ∀ l ∈ more.head?, isBoundary l = true) (ls : List Line) :
    (ls ++ more).takeWhile (!isBoundary ·) = ls.takeWhile (!isBoundary ·) := by
  have ended : more.takeWhile (!isBoundary ·) = [] := by
    cases more with
    | nil => rfl
    | cons l more => exact List.takeWhile_cons_of_neg (by simp [begins l rfl])
  rw [List.takeWhile_append, ended, List.append_nil]
  split
  case isTrue all => exact ((List.takeWhile_prefix _).eq_of_length all).symm
  case isFalse => rfl

/-- No section reaches over the seam of two reports, and none begins in front of it and is headed behind
it. -/
theorem sections_append (ends : ∀ l ∈ ls.getLast?, isBoundary l = false ∧ heading? l = none)
    (begins : ∀ l ∈ more.head?, isBoundary l = true) : sections (ls ++ more) = sections ls ++ sections more := by
  -- by the steps of the search in the upper report
  induction ls using sections.induct with
  | case1 boundary title closing rest boundaries file headed ih =>
    have rest_ends : ∀ l ∈ rest.getLast?, isBoundary l = false ∧ heading? l = none := by
      intro l hl
      obtain ⟨init, rfl⟩ := List.getLast?_eq_some_iff.1 hl
      exact ends l (List.getLast?_eq_some_iff.2 ⟨boundary :: title :: closing :: init, rfl⟩)
    simp only [List.cons_append, sections, boundaries, headed, if_true, takeWhile_append_of_boundary begins,
      ih rest_ends]
  | case2 boundary title closing rest boundaries headless ih =>
    simp only [List.cons_append, sections, boundaries, headless, if_true]
    exact ih (by simpa using ends)
  | case3 boundary title closing rest boundaries ih =>
    simp only [List.cons_append, sections, boundaries]
    exact ih (by simpa using ends)
  | case4 ls short =>
    rcases ls with _ | ⟨l, _ | ⟨last, _ | ⟨closing, rest⟩⟩⟩
    · rfl
    · exact sections_cons_of_not_boundary (ends l rfl).1 more
    · have := ends last rfl
      rw [List.cons_append, sections_cons_of_head (by simpa using this.2), List.singleton_append,
        sections_cons_of_not_boundary this.1]
      rfl
    · exact absurd rfl (short l last closing rest)

end Sections

/-- Two reports, the second below the first, are read as they are read alone, whatever they hold, if the
first does not end with a boundary or a heading, and the second begins with a boundary. -/
theorem parseReport_append {a b : String}
    (ends : ∀ l ∈ (lines a.toList).getLast?, (∀ r : Boundary, r.line ≠ l) ∧ ∀ t : Title, t.line ≠ l)
    (begins : ∃ r : Boundary, (lines b.toList).head? = some r.line) :
    parseReport (a ++ "\n" ++ b) = parseReport a ++ parseReport b := by
  have split : lines (a ++ "\n" ++ b).toList = lines a.toList ++ lines b.toList := by
    have feed : (a ++ "\n" ++ b).toList = a.toList ++ '\n' :: b.toList := by simp
    rw [feed, lines_append]
  have last : ∀ l ∈ (lines a.toList).getLast?, isBoundary l = false ∧ heading? l = none := by
    intro l hl
    obtain ⟨noBoundary, noTitle⟩ := ends l hl
    exact ⟨isBoundary_eq_false_iff.2 noBoundary, heading?_eq_none_iff.2 noTitle⟩
  have first : ∀ l ∈ (lines b.toList).head?, isBoundary l = true := by
    obtain ⟨r, hr⟩ := begins
    intro l hl
    rw [hr] at hl
    obtain rfl := Option.some.inj hl
    exact r.isBoundary_line
  rw [parseReport_eq, split, sections_append last first, List.flatMap_append, parseReport_eq,
    parseReport_eq]

namespace Stacked

/-! A report that breaks off inside of an entry, and one that begins where it does. -/

def upper : String := "Note:\n -- ----\n Line a.php\n -- ----\n  1 one\n    and more"

def lower : String := " ---- -- \r\n Line b.php\n -- --\n  2 two"

theorem ends : ∀ l ∈ (lines upper.toList).getLast?,
    (∀ r : Boundary, r.line ≠ l) ∧ ∀ t : Title, t.line ≠ l := by
  intro l hl
  obtain rfl : "    and more".toList = l := Option.some.inj hl
  exact ⟨isBoundary_eq_false_iff.1 (by decide +kernel), heading?_eq_none_iff.1 (by decide +kernel)⟩

theorem begins : ∃ r : Boundary, (lines lower.toList).head? = some r.line := by
  obtain ⟨r, hr⟩ := isBoundary_iff.1 (show isBoundary " ---- -- \r".toList = true by decide +kernel)
  exact ⟨r, hr ▸ by decide +kernel⟩

theorem both_read : (parseReport (upper ++ "\n" ++ lower)).map (fun d => (d.file, d.message)) =
    [("a.php", "one and more"), ("b.php", "two")] := by
  rw [parseReport_append ends begins]
  decide +kernel

end Stacked

/-- With a heading for its last line, a report heads what stands below it. -/
example : parseReport " -- --\n Line a.php" = [] ∧ parseReport " -- --\n 1 one" = [] ∧
    parseReport " -- --\n Line a.php\n -- --\n 1 one" ≠ [] := by decide +kernel

end Mender.Report
