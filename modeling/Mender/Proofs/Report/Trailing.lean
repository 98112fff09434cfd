import Mender.Proofs.Report.Shape
import Mender.Run

/-! Blanks at the end of a line. None of the readers of a line looks at them, so each of them reads a line
as it reads what is left when its end is trimmed. A report is therefore read off its lines, and it does
not matter that a carriage return is taken off them first. -/

namespace Mender.Report

open Mender.Text

section Append

variable (b : Blanks)

theorem trimStart_append_blanks (s : List Char) :
    trimStart (s ++ b.chars) = trimStart s ++ b.chars ∨
      trimStart s = [] ∧ trimStart (s ++ b.chars) = [] := by
  rw [trimStart, List.dropWhile_append]
  split
  case isTrue h =>
    refine .inr ⟨List.isEmpty_iff.1 h, ?_⟩
    rw [List.dropWhile_eq_nil_iff]
    exact b.blank
  case isFalse => exact .inl rfl

theorem words_append_blanks (s : List Char) : words (s ++ b.chars) = words s := by
  obtain ⟨b, blank⟩ := b
  cases b with
  | nil => rw [List.append_nil]
  | cons c b =>
    rw [List.forall_mem_cons] at blank
    have none : words b = [] := by
      rw [← List.append_nil b, words_blank_append blank.2]
      rfl
    rw [words_append_cons blank.1, none, List.append_nil]

theorem isBoundary_append_blanks (l : Line) : isBoundary (l ++ b.chars) = isBoundary l := by
  rw [isBoundary, isBoundary, words_append_blanks]

theorem messageColumn_append_blanks {l : Line} (h : isBoundary l = true) :
    messageColumn (l ++ b.chars) = messageColumn l := by
  obtain ⟨r, rfl⟩ := isBoundary_iff.1 h
  let longer : Boundary := { r with tail := ⟨r.tail.chars ++ b.chars, by
    intro c hc
    exact (List.mem_append.1 hc).elim (r.tail.blank c) (b.blank c)⟩ }
  have line : longer.line = r.line ++ b.chars := by
    simp only [longer, Boundary.line, List.append_assoc]
  rw [← line, longer.messageColumn_line, r.messageColumn_line]
  rfl

theorem oneLine?_append_blanks (s : List Char) : oneLine? (s ++ b.chars) = oneLine? s := by
  rw [oneLine?, oneLine?, trim_append_blank b.blank]

theorem setOff?_append_blanks (s : List Char) : setOff? (s ++ b.chars) = setOff? s := by
  cases s with
  | cons c s =>
    rw [List.cons_append, setOff?, setOff?, trim_append_blank b.blank, oneLine?_append_blanks]
  | nil =>
    obtain ⟨b, blank⟩ := b
    cases b with
    | nil => rfl
    | cons c b =>
      rw [List.forall_mem_cons] at blank
      have none : trim b = [] := trim_append_blank blank.2 []
      rw [List.nil_append, setOff?, none]
      simp [setOff?]

section Marks

variable {mark : List Char}

/-- A mark without blanks does not reach into the blanks behind a text. -/
theorem isPrefixOf_append_blanks (solid : ∀ c ∈ mark, isBlank c = false) (s : List Char) :
    mark.isPrefixOf (s ++ b.chars) = mark.isPrefixOf s := by
  rw [Bool.eq_iff_iff, List.isPrefixOf_iff_prefix, List.isPrefixOf_iff_prefix]
  refine ⟨fun h => ?_, fun h => h.trans (List.prefix_append _ _)⟩
  rcases Nat.le_total mark.length s.length with short | long
  · exact List.prefix_of_prefix_length_le h (List.prefix_append _ _) short
  · obtain ⟨rest, rfl⟩ := List.prefix_of_prefix_length_le (List.prefix_append _ _) h long
    have within := (List.prefix_append_right_inj s).1 h
    have none : rest = [] := List.eq_nil_iff_forall_not_mem.2 fun c hc => by
      have := b.blank c (within.subset hc)
      rw [solid c (List.mem_append_right s hc)] at this
      cases this
    rw [none, List.append_nil]

theorem dropMark?_append_blanks (solid : ∀ c ∈ mark, isBlank c = false) (s : List Char) :
    dropMark? mark (s ++ b.chars) = (dropMark? mark s).map (· ++ b.chars) := by
  rw [dropMark?, dropMark?, isPrefixOf_append_blanks b solid]
  split
  case isTrue h =>
    rw [Option.map_some, List.drop_append_of_le_length (List.isPrefixOf_iff_prefix.1 h).length_le]
  case isFalse => rfl

/-- What is read behind a mark at the start of a line is read alike with blanks behind it. -/
theorem bind_dropMark?_append_blanks {read : List Char → Option (List Char)}
    (alike : ∀ s, read (s ++ b.chars) = read s) (solid : ∀ c ∈ mark, isBlank c = false) (l : Line) :
    (dropMark? mark (trimStart (l ++ b.chars))).bind read = (dropMark? mark (trimStart l)).bind read := by
  rcases trimStart_append_blanks b l with h | ⟨h, h'⟩
  · rw [h, dropMark?_append_blanks b solid, Option.bind_map]
    exact congrArg _ (funext alike)
  · rw [h, h']

theorem heading?_append_blanks (l : Line) : heading? (l ++ b.chars) = heading? l :=
  bind_dropMark?_append_blanks b (setOff?_append_blanks b) (by simp [isBlank]) l

theorem not_isBlank_of_mem_sign (hsign : mark ∈ [codeSign, suggestionSign, linkSign]) :
    ∀ c ∈ mark, isBlank c = false := by
  simp only [List.mem_cons, List.not_mem_nil, or_false] at hsign
  rcases hsign with rfl | rfl | rfl <;> simp [isBlank, codeSign, suggestionSign, linkSign]

theorem signed?_append_blanks (hsign : mark ∈ [codeSign, suggestionSign, linkSign]) (l : Line) :
    signed? mark (l ++ b.chars) = signed? mark l :=
  bind_dropMark?_append_blanks b (oneLine?_append_blanks b) (not_isBlank_of_mem_sign hsign) l

theorem isMarked_append_blanks (l : Line) : isMarked (l ++ b.chars) = isMarked l := by
  rcases trimStart_append_blanks b l with h | ⟨h, h'⟩
  · rw [isMarked, isMarked, h, Bool.eq_iff_iff, List.any_eq_true, List.any_eq_true]
    refine exists_congr fun sign => and_congr_right fun hsign => ?_
    rw [isPrefixOf_append_blanks b (not_isBlank_of_mem_sign hsign)]
  · rw [isMarked, isMarked, h, h']

end Marks

/-- The blanks are no digits, and they leave the indentation as it is. -/
theorem entry?_append_blanks (column : Nat) (l : Line) :
    entry? column (l ++ b.chars) = entry? column l := by
  unfold entry?
  rcases trimStart_append_blanks b l with h | ⟨h, h'⟩
  · have noDigit : ∀ c ∈ b.chars, ¬ c.isDigit = true := fun c hc digit => by
      have := b.blank c hc
      rw [isBlank_of_isDigit digit] at this
      cases this
    have digits : (trimStart l ++ b.chars).takeWhile Char.isDigit = (trimStart l).takeWhile Char.isDigit := by
      rw [List.takeWhile_append, List.takeWhile_eq_nil_iff.2 fun _ => noDigit _ (List.getElem_mem _)]
      split
      case isTrue all =>
        rw [List.append_nil]
        exact ((List.takeWhile_prefix _).eq_of_length all).symm
      case isFalse => rfl
    have rest : (trimStart l ++ b.chars).dropWhile Char.isDigit =
        (trimStart l).dropWhile Char.isDigit ++ b.chars := by
      rw [List.dropWhile_append, List.dropWhile_eq_self_iff.2 fun _ => noDigit _ (List.getElem_mem _)]
      split
      case isTrue none => rw [List.isEmpty_iff.1 none, List.nil_append]
      case isFalse => rfl
    have indent : (l ++ b.chars).length - (trimStart l ++ b.chars).length =
        l.length - (trimStart l).length := by
      rw [List.length_append, List.length_append, Nat.add_sub_add_right]
    simp only [h, digits, rest, indent, setOff?_append_blanks]
  · rw [h, h']
    rfl

theorem read_append_blanks (column : Nat) (l : Line) :
    Row.read column (l ++ b.chars) = Row.read column l := by
  rw [Row.read, Row.read, entry?_append_blanks, signed?_append_blanks b (by simp),
    signed?_append_blanks b (by simp), isMarked_append_blanks, trim_append_blank b.blank]

end Append

section Trimmed

theorem exists_eq_trimEnd_append (l : Line) : ∃ b : Blanks, l = trimEnd l ++ b.chars := by
  obtain ⟨b, h, blank⟩ := exists_trimEnd_append l
  exact ⟨⟨b, blank⟩, h⟩

theorem isBoundary_trimEnd (l : Line) : isBoundary (trimEnd l) = isBoundary l := by
  obtain ⟨b, h⟩ := exists_eq_trimEnd_append l
  rw [← isBoundary_append_blanks b, ← h]

theorem messageColumn_trimEnd {l : Line} (h : isBoundary l = true) :
    messageColumn (trimEnd l) = messageColumn l := by
  obtain ⟨b, hb⟩ := exists_eq_trimEnd_append l
  rw [← messageColumn_append_blanks b (by rw [isBoundary_trimEnd, h]), ← hb]

theorem heading?_trimEnd (l : Line) : heading? (trimEnd l) = heading? l := by
  obtain ⟨b, h⟩ := exists_eq_trimEnd_append l
  rw [← heading?_append_blanks b, ← h]

theorem read_trimEnd (column : Nat) (l : Line) : Row.read column (trimEnd l) = Row.read column l := by
  obtain ⟨b, h⟩ := exists_eq_trimEnd_append l
  rw [← read_append_blanks b, ← h]

def Section.trimmed (s : Section) : Section := { s with body := s.body.map trimEnd }

theorem Section.diagnostics_trimmed (s : Section) : s.trimmed.diagnostics = s.diagnostics := by
  have same : s.trimmed.body.map (Row.read s.column) = s.body.map (Row.read s.column) := by
    rw [Section.trimmed, List.map_map]
    exact List.map_congr_left fun l _ => read_trimEnd s.column l
  rw [Section.diagnostics, Section.diagnostics, ← same]
  rfl

theorem takeWhile_map_trimEnd (ls : List Line) :
    (ls.map trimEnd).takeWhile (!isBoundary ·) = (ls.takeWhile (!isBoundary ·)).map trimEnd := by
  rw [List.takeWhile_map]
  simp only [Function.comp_def, isBoundary_trimEnd]

/-- Trimming the ends of the lines opens no section and closes none. -/
theorem sections_map_trimEnd (ls : List Line) :
    sections (ls.map trimEnd) = (sections ls).map Section.trimmed := by
  induction ls using sections.induct with
  | case1 boundary title closing rest boundaries file headed ih =>
    have opening := (Bool.and_eq_true_iff.1 boundaries).1
    simp only [List.map_cons, sections, isBoundary_trimEnd, heading?_trimEnd, boundaries, headed, if_true,
      takeWhile_map_trimEnd, messageColumn_trimEnd opening, ih, Section.trimmed]
  | case2 boundary title closing rest boundaries headless ih =>
    simp only [List.map_cons, sections, isBoundary_trimEnd, heading?_trimEnd, boundaries, headless, if_true]
    exact ih
  | case3 boundary title closing rest boundaries ih =>
    simp only [List.map_cons, sections, isBoundary_trimEnd, boundaries]
    exact ih
  | case4 ls short =>
    rcases ls with _ | ⟨boundary, _ | ⟨title, _ | ⟨closing, rest⟩⟩⟩
    · rfl
    · rfl
    · rfl
    · exact absurd rfl (short boundary title closing rest)

theorem flatMap_diagnostics_map_trimEnd (ls : List Line) :
    (sections (ls.map trimEnd)).flatMap Section.diagnostics =
      (sections ls).flatMap Section.diagnostics := by
  rw [sections_map_trimEnd, List.flatMap_map]
  exact List.flatMap_congr fun s _ => s.diagnostics_trimmed

theorem map_trimEnd_linesOf (report : List Char) :
    (linesOf report).map trimEnd = (lines report).map trimEnd := by
  rw [linesOf, List.map_map]
  refine List.map_congr_left fun l _ => ?_
  dsimp only [Function.comp]
  split
  case isTrue h =>
    obtain ⟨s, rfl⟩ := List.getLast?_eq_some_iff.1 h
    rw [List.dropLast_concat, trimEnd_append_blank (List.forall_mem_singleton.2 (by decide))]
  case isFalse => rfl

/-- A report is read off its lines, be there a carriage return at their ends or not. -/
theorem parseReport_eq (report : String) :
    parseReport report = (sections (lines report.toList)).flatMap Section.diagnostics := by
  rw [parseReport, diagnostics, ← flatMap_diagnostics_map_trimEnd, map_trimEnd_linesOf,
    flatMap_diagnostics_map_trimEnd]

end Trimmed

end Mender.Report
