import Mender.Proofs.Report.Trailing
import Mender.Proofs.Text.Lines

/-! Blanks at the ends of the lines of a report. What a report is read as is told by its lines with their
ends trimmed, so blanks may be added to the end of any line; that lines end in a carriage return and a
line feed is one case of it. -/

namespace Mender.Report

open Mender.Text

/-- A report is read as its lines are with their ends trimmed. -/
theorem parseReport_eq_of_map_trimEnd {report report' : String}
    (h : (lines report.toList).map trimEnd = (lines report'.toList).map trimEnd) :
    parseReport report = parseReport report' := by
  rw [parseReport_eq, parseReport_eq, ← flatMap_diagnostics_map_trimEnd, h,
    flatMap_diagnostics_map_trimEnd]

/-- The report with blanks at the end of each line, which may be others for each of them. -/
def padded (pad : Nat → Gap) (report : String) : String :=
  String.ofList (unlines ((lines report.toList).mapIdx fun i l => l ++ (pad i).chars))

/-- The text with a carriage return before each line feed. -/
def withReturns (s : List Char) : List Char := s.flatMap fun c => if c = '\n' then ['\r', '\n'] else [c]

theorem map_trimEnd_lines_padded (pad : Nat → Gap) (report : String) :
    (lines (padded pad report).toList).map trimEnd = (lines report.toList).map trimEnd := by
  have hne : (lines report.toList).mapIdx (fun i l => l ++ (pad i).chars) ≠ [] := by
    simpa using lines_ne_nil report.toList
  have inline : ∀ l ∈ (lines report.toList).mapIdx (fun i l => l ++ (pad i).chars), '\n' ∉ l := by
    intro l hl
    obtain ⟨i, hi, rfl⟩ := List.mem_mapIdx.1 hl
    rw [List.mem_append, not_or]
    exact ⟨not_mem_of_mem_lines (List.getElem_mem hi), (pad i).inline⟩
  rw [padded, String.toList_ofList, lines_unlines hne inline]
  refine List.ext_getElem (by simp) fun i _ _ => ?_
  rw [List.getElem_map, List.getElem_map, List.getElem_mapIdx, trimEnd_append_blank (pad i).blank]

theorem withReturns_of_not_mem {s : List Char} (h : '\n' ∉ s) : withReturns s = s := by
  have each : ∀ c ∈ s, (if c = '\n' then ['\r', '\n'] else [c]) = [c] := by
    intro c hc
    rw [if_neg]
    rintro rfl
    exact h hc
  rw [withReturns, List.flatMap_congr each, List.flatMap_singleton']

theorem map_trimEnd_lines_withReturns_unlines {ls : List Line} (hne : ls ≠ [])
    (h : ∀ l ∈ ls, '\n' ∉ l) : (lines (withReturns (unlines ls))).map trimEnd = ls.map trimEnd := by
  induction ls with
  | nil => exact absurd rfl hne
  | cons l ls ih =>
    obtain ⟨hl, hls⟩ := List.forall_mem_cons.1 h
    cases ls with
    | nil => rw [unlines_singleton, withReturns_of_not_mem hl, lines_of_not_mem hl]
    | cons l' ls =>
      have inline : '\n' ∉ l ++ ['\r'] := by simpa using hl
      have split : withReturns (unlines (l :: l' :: ls)) =
          l ++ ['\r'] ++ '\n' :: withReturns (unlines (l' :: ls)) := by
        rw [unlines_cons_cons, withReturns, List.flatMap_append, ← withReturns, withReturns_of_not_mem hl,
          List.append_assoc]
        rfl
      rw [split, lines_append, lines_of_not_mem inline, List.map_append, ih (List.cons_ne_nil _ _) hls,
        List.map_singleton, trimEnd_append_blank (List.forall_mem_singleton.2 (by decide))]
      rfl

theorem map_trimEnd_lines_withReturns (s : List Char) :
    (lines (withReturns s)).map trimEnd = (lines s).map trimEnd := by
  have := map_trimEnd_lines_withReturns_unlines (lines_ne_nil s) fun _ => not_mem_of_mem_lines
  rwa [unlines_lines] at this

/-- Blanks at the ends of the lines of a report do not matter, be they the same on each line or not, and
neither does how its lines end. -/
theorem parseReport_padded (report : String) :
    (∀ pad : Nat → Gap, parseReport (padded pad report) = parseReport report) ∧
      parseReport (String.ofList (withReturns report.toList)) = parseReport report := by
  constructor
  · intro pad
    exact parseReport_eq_of_map_trimEnd (map_trimEnd_lines_padded pad report)
  · apply parseReport_eq_of_map_trimEnd
    rw [String.toList_ofList, map_trimEnd_lines_withReturns]

end Mender.Report
