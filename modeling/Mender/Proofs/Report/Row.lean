import Mender.Proofs.Report.Shape
import Mender.Proofs.Report.Table

/-! How each line of a table reads. What it is shows at its first character that is not blank, except
that a number starts an entry only to the left of the messages. -/

namespace Mender.Report

open Mender.Text

section Heads

variable {l s : Line} {c : Char}

/-- A line that does not start with a dash is no boundary. -/
theorem not_isBoundary_of_trimStart (h : trimStart l = c :: s) (hb : isBlank c = false)
    (hc : c ≠ '-') : isBoundary l = false := by
  obtain ⟨w, ws, hws⟩ := words_cons hb s
  rw [isBoundary, ← words_trimStart, h, hws]
  simp [hc]

theorem heading?_of_trimStart (h : trimStart l = c :: s) (hc : c ≠ 'L') : heading? l = none := by
  rw [heading?, h]
  simp [dropMark?, List.isPrefixOf, Ne.symm hc]

/-- A line that does not start with a digit is no entry. -/
theorem entry?_of_trimStart (column : Nat) (h : trimStart l = c :: s) (hc : c.isDigit = false) :
    entry? column l = none := by
  unfold entry?
  simp [h, hc]

end Heads

namespace Ruling

variable (r : Ruling)

def boundary : Boundary where
  indent := r.indent.blanks
  first := r.first
  second := ⟨r.gap.blanks, r.second, r.gap_ne_nil, r.two_le_second⟩
  more := []
  tail := .empty
  two_le_first := r.two_le_first

theorem line_boundary : r.boundary.line = r.line := by
  simp [boundary, Boundary.line, line, Stretch.chars, Gap.blanks, Blanks.empty]

theorem isBoundary_line : isBoundary r.line = true := r.line_boundary ▸ r.boundary.isBoundary_line

theorem messageColumn_line : messageColumn r.line = r.column :=
  r.line_boundary ▸ r.boundary.messageColumn_line

theorem trimStart_line : trimStart r.line =
    List.replicate r.first '-' ++ (r.gap.chars ++ List.replicate r.second '-') := by
  rw [line, r.indent.trimStart_append]
  obtain ⟨n, hn⟩ := Nat.exists_eq_add_of_le' r.two_le_first
  rw [hn, List.replicate_succ, List.cons_append]
  exact trimStart_cons (by decide) _

theorem heading?_line : heading? r.line = none := by
  obtain ⟨n, hn⟩ := Nat.exists_eq_add_of_le' r.two_le_first
  have := r.trimStart_line
  rw [hn, List.replicate_succ, List.cons_append] at this
  exact heading?_of_trimStart this (by decide)

end Ruling

namespace Table

variable (t : Table)

theorem heading?_title : heading? t.title = some t.file.chars := by
  have line : Title.line ⟨t.indent.blanks, t.gap.blanks, t.file, .empty, t.gap_ne_nil⟩ = t.title := by
    simp [Title.line, title, Gap.blanks, Blanks.empty]
  exact line ▸ Title.heading?_line _

end Table

namespace Item

variable {column : Nat} (i : Item column)

theorem isDigit_of_mem : ∀ c ∈ Nat.toDigits 10 i.number, c.isDigit = true := fun _ =>
  Nat.isDigit_of_mem_toDigits (by decide) (by decide)

theorem trimStart_firstLine :
    trimStart i.firstLine = Nat.toDigits 10 i.number ++ (i.gap.chars ++ i.text.chars) := by
  obtain ⟨c, s, hs⟩ := List.exists_cons_of_ne_nil (Nat.toDigits_ne_nil (n := i.number) (b := 10))
  rw [firstLine, i.indent.trimStart_append, hs, List.cons_append]
  exact trimStart_cons (isBlank_of_isDigit (i.isDigit_of_mem c (by rw [hs]; exact List.mem_cons_self))) _

def start : Start column :=
  ⟨i.indent.blanks, Nat.toDigits 10 i.number, i.gap.blanks, i.text, .empty, i.lt_column,
    Nat.toDigits_ne_nil, i.isDigit_of_mem, i.gap_ne_nil⟩

theorem line_start : i.start.line = i.firstLine := by
  simp [start, Start.line, firstLine, Gap.blanks, Blanks.empty]

theorem read_firstLine :
    Row.read column i.firstLine = .entry (.ofNat i.number) i.text.chars := by
  have number : i.start.number = i.number := Nat.ofDigitChars_ten_toDigits
  rw [Row.read, ← i.line_start, i.start.entry?_line, number]
  rfl

end Item

theorem Continuation.read_line {column : Nat} (c : Continuation column) :
    Row.read column (c.indent.chars ++ c.text.chars) = .wrapped c.text.chars := by
  have start : trimStart (c.indent.chars ++ c.text.chars) = c.text.chars := by
    rw [c.indent.trimStart_append, c.text.trimStart_eq]
  have far : column ≤ (c.indent.chars ++ c.text.chars).length - c.text.chars.length := by
    rw [List.length_append, Nat.add_sub_cancel]
    exact c.column_le
  have marked := c.not_marked
  simp only [isMarked, c.text.trimStart_eq, List.any_cons, List.any_nil, Bool.or_false,
    Bool.or_eq_false_iff] at marked
  obtain ⟨code, suggestion, link⟩ := marked
  have none : entry? column (c.indent.chars ++ c.text.chars) = none := by
    unfold entry?
    rw [start]
    exact if_pos (.inr far)
  rw [Row.read, none]
  simp [start, signed?, dropMark?, code, suggestion, link, isMarked,
    c.text.trim_blank_append c.indent.blank]

namespace Remark

variable (r : Remark)

/-- A line behind a sign starts with the sign. -/
theorem trimStart_line {sign s : List Char} {c : Char} (hs : sign = c :: s) (h : isBlank c = false) :
    trimStart (r.line sign) = sign ++ (r.gap.chars ++ r.text.chars) := by
  subst hs
  rw [line, r.indent.trimStart_append]
  exact trimStart_cons h _

theorem signed?_line {sign s : List Char} {c : Char} (hs : sign = c :: s) (h : isBlank c = false) :
    signed? sign (r.line sign) = some r.text.chars := by
  rw [signed?, r.trimStart_line hs h, dropMark?, if_pos (by simp), List.drop_left, Option.bind_some]
  exact oneLine?_eq_some_iff.2 ⟨r.text.trim_blank_append r.gap.blank, r.text.oneLine⟩

theorem read_code (column : Nat) : Row.read column (r.line codeSign) = .code r.text.chars := by
  have start : trimStart (r.line codeSign) = codeSign ++ (r.gap.chars ++ r.text.chars) :=
    r.trimStart_line rfl (by decide)
  have code : signed? codeSign (r.line codeSign) = some r.text.chars :=
    r.signed?_line rfl (by decide)
  rw [Row.read, entry?_of_trimStart column start (by decide), code]

theorem read_suggestion (column : Nat) :
    Row.read column (r.line suggestionSign) = .suggestion r.text.chars := by
  have start : trimStart (r.line suggestionSign) =
      suggestionSign ++ (r.gap.chars ++ r.text.chars) :=
    r.trimStart_line rfl (by decide)
  have none : signed? codeSign (r.line suggestionSign) = none := by
    rw [signed?, start]
    rfl
  have suggestion : signed? suggestionSign (r.line suggestionSign) = some r.text.chars :=
    r.signed?_line rfl (by decide)
  rw [Row.read, entry?_of_trimStart column start (by decide), none, suggestion]

end Remark

end Mender.Report
