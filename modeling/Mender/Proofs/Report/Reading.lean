import Mender.Proofs.Report.Row
import Mender.Proofs.Report.Trailing

/-! Reading a report undoes writing it: the diagnostics are those of its tables, in their order, and
nothing that stands around the tables adds to them or takes from them. -/

namespace Mender.Report

open Mender.Text

section Sections

theorem sections_cons_of_not_boundary {l : Line} (h : isBoundary l = false) (ls : List Line) :
    sections (l :: ls) = sections ls := by
  rcases ls with _ | ⟨title, _ | ⟨closing, rest⟩⟩
  · simp [sections]
  · simp [sections]
  · rw [sections, h]
    rfl

theorem sections_append_of_not_boundary {ls : List Line} (h : ∀ l ∈ ls, isBoundary l = false)
    (rest : List Line) : sections (ls ++ rest) = sections rest := by
  induction ls with
  | nil => rfl
  | cons l ls ih =>
    rw [List.forall_mem_cons] at h
    rw [List.cons_append, sections_cons_of_not_boundary h.1, ih h.2]

/-- A line opens no section if no heading follows it. -/
theorem sections_cons_of_head {ls : List Line} (h : ∀ l ∈ ls.head?, heading? l = none) (l : Line) :
    sections (l :: ls) = sections ls := by
  rcases ls with _ | ⟨title, _ | ⟨closing, rest⟩⟩
  · simp [sections]
  · simp [sections]
  · rw [sections, h title rfl]
    split <;> rfl

end Sections

namespace Item

variable {column : Nat} (i : Item column)

/-- What holds of each kind of line holds of all lines of an item. -/
theorem forall_mem_lines {P : Line → Prop} (first : P i.firstLine)
    (more : ∀ c : Continuation column, P (c.indent.chars ++ c.text.chars))
    (code : ∀ r : Remark, P (r.line codeSign)) (suggestion : ∀ r : Remark, P (r.line suggestionSign)) :
    ∀ l ∈ i.lines, P l := by
  intro l hl
  rw [lines, List.mem_cons, List.mem_append, List.mem_append] at hl
  rcases hl with rfl | hl | hl | hl
  · exact first
  · obtain ⟨c, -, rfl⟩ := List.mem_map.1 hl
    exact more c
  · obtain ⟨r, -, rfl⟩ := List.mem_map.1 hl
    exact code r
  · obtain ⟨r, -, rfl⟩ := List.mem_map.1 hl
    exact suggestion r

theorem not_isBoundary_of_mem_lines : ∀ l ∈ i.lines, isBoundary l = false := by
  refine i.forall_mem_lines ?_ (fun c => ?_) (fun r => ?_) fun r => ?_
  · obtain ⟨c, s, hs⟩ := List.exists_cons_of_ne_nil (Nat.toDigits_ne_nil (n := i.number) (b := 10))
    have digit : c.isDigit = true := i.isDigit_of_mem c (by rw [hs]; exact List.mem_cons_self)
    have start := i.trimStart_firstLine
    rw [hs, List.cons_append] at start
    refine not_isBoundary_of_trimStart start (isBlank_of_isDigit digit) ?_
    rintro rfl
    cases digit
  · rw [isBoundary, words_blank_append c.indent.blank]
    exact c.not_boundary
  · exact not_isBoundary_of_trimStart (r.trimStart_line rfl (by decide)) (by decide) (by decide)
  · exact not_isBoundary_of_trimStart (r.trimStart_line rfl (by decide)) (by decide) (by decide)

end Item

namespace Table

variable (t : Table)

theorem not_isBoundary_of_mem_body : ∀ l ∈ t.body, isBoundary l = false := by
  intro l hl
  obtain ⟨i, -, hl⟩ := List.mem_flatMap.1 hl
  exact i.not_isBoundary_of_mem_lines l hl

/-- A table is a section, and what follows it is read on its own. -/
theorem sections_lines_append {rest : List Line} (h : ∀ l ∈ rest.head?, heading? l = none) :
    sections (t.lines ++ rest) = ⟨t.file.chars, t.opening.column, t.body⟩ :: sections rest := by
  have body : (t.body ++ t.closing.line :: rest).takeWhile (!isBoundary ·) = t.body := by
    rw [List.takeWhile_append_of_pos, List.takeWhile_cons_of_neg, List.append_nil]
    · simp [t.closing.isBoundary_line]
    · intro l hl
      simp [t.not_isBoundary_of_mem_body l hl]
  -- the search for a section goes on behind the second boundary, over the body
  have after : sections (t.body ++ t.closing.line :: rest) = sections rest := by
    rw [sections_append_of_not_boundary t.not_isBoundary_of_mem_body, sections_cons_of_head h]
  rw [lines, List.cons_append, List.cons_append, List.cons_append, List.append_assoc,
    List.singleton_append, sections, t.opening.isBoundary_line, t.lower.isBoundary_line,
    t.heading?_title, t.opening.messageColumn_line, body, after]
  rfl

end Table

/-- Rows that are no entries go to the entry that is being read. -/
theorem entriesFrom_append {rest : List Row}
    (h : ∀ row ∈ rest, ∀ number said, row ≠ .entry number said)
    (e : Entry) (rows : List Row) :
    entriesFrom (some e) (rest ++ rows) = entriesFrom (some (rest.foldl Entry.take e)) rows := by
  induction rest generalizing e with
  | nil => rfl
  | cons row rest ih =>
    rw [List.forall_mem_cons] at h
    cases row with
    | entry number said => exact absurd rfl (h.1 number said)
    | _ => exact ih h.2 _

namespace Item

variable {column : Nat} (i : Item column)

def entry : Entry where
  number := .ofNat i.number
  message := i.message
  code := i.code.map (·.text.chars)
  suggestion := i.suggestion.map (·.text.chars)
  isOpen := i.code.isNone && i.suggestion.isNone

theorem foldl_take_wrapped (texts : List Phrase) (number : Number) (message : List Char) :
    (texts.map fun p => Row.wrapped p.chars).foldl Entry.take (.start number message) =
      .start number (message ++ texts.flatMap (' ' :: ·.chars)) := by
  induction texts generalizing message with
  | nil => rw [List.flatMap_nil, List.append_nil]; rfl
  | cons p texts ih =>
    have more : (Entry.start number message).take (.wrapped p.chars) =
        .start number (message ++ ' ' :: p.chars) := by
      simp [Entry.take, Entry.start, p.ne_nil]
    rw [List.map_cons, List.foldl_cons, more, ih, List.flatMap_cons, List.append_assoc]

theorem message_eq : i.message = i.text.chars ++ (i.more.map (·.text)).flatMap (' ' :: ·.chars) := by
  rw [message, intercalate_cons, List.flatMap_map, List.flatMap_map]
  rfl

theorem map_read_lines : i.lines.map (Row.read column) =
    .entry (.ofNat i.number) i.text.chars :: ((i.more.map (·.text)).map (fun p => Row.wrapped p.chars) ++
      (i.code.toList.map (fun r => Row.code r.text.chars) ++
        i.suggestion.toList.map fun r => Row.suggestion r.text.chars)) := by
  simp [lines, i.read_firstLine, Continuation.read_line, Remark.read_code, Remark.read_suggestion,
    Function.comp_def]

theorem foldl_take_remarks :
    (i.code.toList.map (fun r => Row.code r.text.chars) ++
      i.suggestion.toList.map fun r => Row.suggestion r.text.chars).foldl Entry.take
        (.start (.ofNat i.number) i.message) = i.entry := by
  unfold entry
  cases i.code <;> cases i.suggestion <;> rfl

/-- The lines of an item end the entry that was being read, and are one. -/
theorem entriesFrom_lines (current? : Option Entry) (rows : List Row) :
    entriesFrom current? (i.lines.map (Row.read column) ++ rows) =
      current?.toList ++ entriesFrom (some i.entry) rows := by
  have wrapped : ∀ row ∈ (i.more.map (·.text)).map (fun p => Row.wrapped p.chars),
      ∀ number said, row ≠ .entry number said := by
    simp
  have remarks : ∀ row ∈ i.code.toList.map (fun r => Row.code r.text.chars) ++
      i.suggestion.toList.map (fun r => Row.suggestion r.text.chars),
      ∀ number said, row ≠ .entry number said := by
    intro row hrow
    rcases List.mem_append.1 hrow with hrow | hrow
    · obtain ⟨r, -, rfl⟩ := List.mem_map.1 hrow
      simp
    · obtain ⟨r, -, rfl⟩ := List.mem_map.1 hrow
      simp
  rw [map_read_lines, List.cons_append, entriesFrom, List.append_assoc, entriesFrom_append wrapped,
    foldl_take_wrapped, ← message_eq, entriesFrom_append remarks, foldl_take_remarks]

theorem nonEmpty_map (r? : Option Remark) : Entry.nonEmpty (r?.map (·.text.chars)) =
    r?.map fun r => String.ofList r.text.chars := by
  cases r? with
  | none => rfl
  | some r => simp [Entry.nonEmpty, Option.filter, r.text.ne_nil]

theorem toDiagnostic?_entry (file : List Char) :
    i.entry.toDiagnostic? file = some (i.diagnostic file) := by
  have counts : Number.le 1 i.entry.number = true := Number.one_le_ofNat_iff.2 i.number_pos
  rw [Entry.toDiagnostic?, if_pos counts]
  simp only [entry, nonEmpty_map, diagnostic]

end Item

theorem Table.diagnostics_eq (t : Table) :
    Section.diagnostics ⟨t.file.chars, t.opening.column, t.body⟩ = t.diagnostics := by
  have entries (current? : Option Entry) (items : List (Item t.opening.column)) :
      entriesFrom current? ((items.flatMap Item.lines).map (Row.read t.opening.column)) =
        current?.toList ++ items.map Item.entry := by
    induction items generalizing current? with
    | nil => simp [entriesFrom]
    | cons i items ih =>
      rw [List.flatMap_cons, List.map_append, i.entriesFrom_lines, ih, List.map_cons,
        Option.toList_some, List.singleton_append]
  rw [Section.diagnostics, body, entries, Option.toList_none, List.nil_append, diagnostics]
  induction t.items with
  | nil => rfl
  | cons i items ih =>
    rw [List.map_cons, List.map_cons, List.filterMap_cons_some (i.toDiagnostic?_entry _), ih]

section Lines

theorem Ruling.newline_not_mem_line (r : Ruling) : '\n' ∉ r.line := by
  simp [line, r.indent.inline, r.gap.inline, List.mem_replicate]

theorem Remark.newline_not_mem_line (r : Remark) {sign : List Char} (h : '\n' ∉ sign) :
    '\n' ∉ r.line sign := by
  simp [line, r.indent.inline, r.gap.inline, r.text.newline_not_mem, h]

theorem Item.newline_not_mem {column : Nat} (i : Item column) : ∀ l ∈ i.lines, '\n' ∉ l := by
  refine i.forall_mem_lines ?_ (fun c => ?_) (fun r => r.newline_not_mem_line (by decide))
    fun r => r.newline_not_mem_line (by decide)
  · have digits : '\n' ∉ Nat.toDigits 10 i.number := fun h => by
      have := i.isDigit_of_mem _ h
      cases this
    simp [firstLine, i.indent.inline, i.gap.inline, i.text.newline_not_mem, digits]
  · simp [c.indent.inline, c.text.newline_not_mem]

theorem Table.newline_not_mem (t : Table) : ∀ l ∈ t.lines, '\n' ∉ l := by
  intro l hl
  simp only [lines, body, List.mem_cons, List.mem_append, List.mem_flatMap, List.not_mem_nil,
    or_false] at hl
  rcases hl with rfl | rfl | rfl | ⟨i, -, hl⟩ | rfl
  · exact t.opening.newline_not_mem_line
  · simp [title, t.indent.inline, t.gap.inline, t.file.newline_not_mem]
  · exact t.lower.newline_not_mem_line
  · exact i.newline_not_mem l hl
  · exact t.closing.newline_not_mem_line

end Lines

namespace Layout

variable (l : Layout)

theorem newline_not_mem : ∀ line ∈ l.lines, '\n' ∉ line := by
  intro line hl
  rcases List.mem_append.1 hl with hl | hl
  · obtain ⟨aside, -, rfl⟩ := List.mem_map.1 hl
    exact aside.inline
  · obtain ⟨⟨t, after⟩, -, hl⟩ := List.mem_flatMap.1 hl
    rcases List.mem_append.1 hl with hl | hl
    · exact t.newline_not_mem line hl
    · obtain ⟨aside, -, rfl⟩ := List.mem_map.1 hl
      exact aside.inline

def tableLines (tables : List (Table × List Aside)) : List Line :=
  tables.flatMap fun (t, after) => t.lines ++ after.map Aside.line

theorem tableLines_cons (t : Table) (after : List Aside) (tables : List (Table × List Aside)) :
    tableLines ((t, after) :: tables) = t.lines ++ (after.map Aside.line ++ tableLines tables) :=
  List.append_assoc ..

theorem heading?_after (after : List Aside) (tables : List (Table × List Aside)) :
    ∀ l ∈ (after.map Aside.line ++ tableLines tables).head?, heading? l = none := by
  intro l hl
  cases after with
  | cons aside after =>
    obtain rfl := Option.some.inj hl
    exact aside.not_heading
  | nil =>
    cases tables with
    | nil => cases hl
    | cons table tables =>
      obtain rfl := Option.some.inj hl
      exact table.1.opening.heading?_line

theorem sections_asides_append (asides : List Aside) (rest : List Line) :
    sections (asides.map Aside.line ++ rest) = sections rest := by
  refine sections_append_of_not_boundary (fun l hl => ?_) rest
  obtain ⟨aside, -, rfl⟩ := List.mem_map.1 hl
  exact aside.not_boundary

theorem sections_tableLines (tables : List (Table × List Aside)) :
    sections (tableLines tables) =
      tables.map fun (t, _) => ⟨t.file.chars, t.opening.column, t.body⟩ := by
  induction tables with
  | nil => rfl
  | cons table tables ih =>
    obtain ⟨t, after⟩ := table
    rw [tableLines_cons, t.sections_lines_append (heading?_after after tables),
      sections_asides_append, ih, List.map_cons]

theorem sections_text : sections (Text.lines l.text) =
    l.tables.map fun (t, _) => ⟨t.file.chars, t.opening.column, t.body⟩ := by
  by_cases hne : l.lines = []
  · have none : l.tables = [] := by
      cases ht : l.tables with
      | nil => rfl
      | cons table tables => simp [lines, ht, Table.lines] at hne
    rw [none, text, hne]
    rfl
  · rw [text, lines_unlines hne l.newline_not_mem, lines, sections_asides_append]
    exact sections_tableLines l.tables

/-- The diagnostics of a written report are those that were written. -/
theorem parseReport_text : parseReport (String.ofList l.text) = l.diagnostics := by
  rw [parseReport_eq, String.toList_ofList, sections_text, diagnostics]
  induction l.tables with
  | nil => rfl
  | cons table tables ih =>
    rw [List.map_cons, List.flatMap_cons, List.flatMap_cons, ih, table.1.diagnostics_eq]

end Layout

namespace Findings

/-! Findings in two files. The message of the first wraps, and its second line begins with a number. -/

def spaces (n : Nat) : Gap where
  chars := List.replicate n ' '
  blank c hc := by rw [List.eq_of_mem_replicate hc]; rfl
  inline := by simp [List.mem_replicate]

def phrase (s : String) (h : s.toList ≠ [] ∧ (∀ c ∈ s.toList.head?, isBlank c = false) ∧
    (∀ c ∈ s.toList.getLast?, isBlank c = false) ∧ ∀ c ∈ s.toList, isLineEnd c = false) : Phrase :=
  ⟨s.toList, h.1, h.2.1, h.2.2.1, h.2.2.2⟩

def wide : Ruling := ⟨spaces 1, 4, spaces 1, 8, by decide, by decide, by decide⟩

def narrow : Ruling := ⟨spaces 0, 2, spaces 1, 2, by decide, by decide, by decide⟩

def tooFew : Item wide.column where
  indent := spaces 2
  number := 12
  gap := spaces 2
  text := phrase "Parameter expects" (by simp [isBlank, isLineEnd])
  more := [⟨spaces 6, phrase "3 values, none given." (by simp [isBlank, isLineEnd]), by decide,
    by decide +kernel, by decide⟩]
  code := some ⟨spaces 6, spaces 1, phrase "arguments.count" (by simp [isBlank, isLineEnd])⟩
  suggestion := some ⟨spaces 6, spaces 1, phrase "Pass them." (by simp [isBlank, isLineEnd])⟩
  lt_column := by decide
  number_pos := by decide
  number_lt := by decide
  gap_ne_nil := by decide

def undefined : Item narrow.column where
  indent := spaces 1
  number := 7
  gap := spaces 1
  text := phrase "Undefined variable: $x" (by simp [isBlank, isLineEnd])
  more := []
  code := none
  suggestion := none
  lt_column := by decide
  number_pos := by decide
  number_lt := by decide
  gap_ne_nil := by decide

def layout : Layout where
  before := [⟨"Note: no cache.".toList, by decide, by decide +kernel, by decide +kernel⟩]
  tables :=
    [(⟨wide, spaces 2, spaces 1, phrase "src/A.php" (by simp [isBlank, isLineEnd]), wide, [tooFew], wide,
        by decide⟩, [⟨[], by decide, by decide, by decide⟩]),
      (⟨narrow, spaces 0, spaces 3, phrase "b.php" (by simp [isBlank, isLineEnd]), narrow, [undefined],
        narrow, by decide⟩,
        [⟨" [ERROR] Found 2 errors".toList, by decide, by decide +kernel, by decide +kernel⟩])]

theorem read_back :
    layout.lines.map String.ofList =
      ["Note: no cache.", " ---- --------", "  Line src/A.php", " ---- --------",
        "  12  Parameter expects", "      3 values, none given.", "      🪪 arguments.count",
        "      💡 Pass them.", " ---- --------", "", "-- --", "Line   b.php", "-- --",
        " 7 Undefined variable: $x", "-- --", " [ERROR] Found 2 errors"] ∧
    parseReport (String.ofList layout.text) =
      [⟨"Parameter expects 3 values, none given.", "src/A.php", 12, .argumentError,
          some "arguments.count", some "Pass them."⟩,
        ⟨"Undefined variable: $x", "b.php", 7, .other, none, none⟩] := by
  refine ⟨rfl, ?_⟩
  rw [layout.parseReport_text]
  decide +kernel

end Findings
end Mender.Report
