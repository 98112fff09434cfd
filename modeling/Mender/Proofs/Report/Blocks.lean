import Mender.Proofs.Report.Reading
import Mender.Proofs.Report.Shape

/-! What a report of any kind is read as. It falls into parts, one for each file, and lines that are passed
over; a part falls into blocks, which begin with the first line of an entry and reach to that of the next.
There is one diagnostic for each block whose number is not zero, and the lines of no other block have a
say in it. -/

namespace Mender.Report

open Mender.Text

/-- An entry, with the lines after its first one that start no other. -/
structure Block (column : Nat) where
  start : Start column
  more : List Line
  noStart : ∀ l ∈ more, ∀ s : Start column, s.line ≠ l

/-- What goes on with a message: the texts of the lines up to the first marked one. -/
def wrapped (more : List Line) : List (List Char) :=
  ((more.takeWhile (!isMarked ·)).map trim).filter (· ≠ [])

/-- What the first identifier says, if it comes before any suggestion. -/
def code? (more : List Line) : Option (List Char) :=
  (more.takeWhile fun l => (signed? suggestionSign l).isNone).findSome? (signed? codeSign)

/-- What the first suggestion says. -/
def suggestion? (more : List Line) : Option (List Char) := more.findSome? (signed? suggestionSign)

namespace Block

variable {column : Nat} (b : Block column)

def lines : List Line := b.start.line :: b.more

def message : List Char := [' '].intercalate (b.start.text.chars :: wrapped b.more)

def diagnostic (file : Phrase) : Diagnostic where
  message := String.ofList b.message
  file := String.ofList file.chars
  line := .ofNat b.start.number
  category := .classify b.message ((code? b.more).getD [])
  code := Entry.nonEmpty (code? b.more)
  suggestion := Entry.nonEmpty (suggestion? b.more)

end Block

/-- The part of a report that is about one file: a heading between boundaries, and the lines up to the
next boundary. -/
structure Part where
  opening : Boundary
  title : Title
  closing : Boundary
  preamble : List Line
  blocks : List (Block opening.column)
  noStart : ∀ l ∈ preamble, ∀ s : Start opening.column, s.line ≠ l
  noBoundary : ∀ l ∈ preamble ++ blocks.flatMap Block.lines, ∀ b : Boundary, b.line ≠ l

namespace Part

variable (p : Part)

def body : List Line := p.preamble ++ p.blocks.flatMap Block.lines

def lines : List Line := p.opening.line :: p.title.line :: p.closing.line :: p.body

/-- One for each block, but those with the number zero. -/
def diagnostics : List Diagnostic :=
  (p.blocks.filter (1 ≤ ·.start.number)).map (·.diagnostic p.title.file)

end Part

/-- A part begins with the first of these lines. -/
def Opens (ls : List Line) : Prop :=
  ∃ (b : Boundary) (t : Title) (b' : Boundary), [b.line, t.line, b'.line] <+: ls

/-- The lines, from the first one on: where a part begins there is one, and it reaches to a boundary or to
the end; any other line is passed over. -/
inductive Divides : List Line → List Part → Prop
  | nil : Divides [] []
  | skip {l : Line} {ls : List Line} {parts : List Part} :
    ¬ Opens (l :: ls) → Divides ls parts → Divides (l :: ls) parts
  | part {p : Part} {rest : List Line} {parts : List Part} :
    (∀ l ∈ rest.head?, ∃ b : Boundary, b.line = l) → Divides rest parts →
      Divides (p.lines ++ rest) (p :: parts)

section Entries

variable {column : Nat}

theorem entry?_eq_none_iff {l : Line} : entry? column l = none ↔ ∀ s : Start column, s.line ≠ l := by
  constructor
  · rintro h s rfl
    rw [s.entry?_line] at h
    cases h
  · intro h
    cases hrow : entry? column l with
    | none => rfl
    | some row =>
      obtain ⟨s, hs, -⟩ := entry?_eq_some_iff.1 hrow
      exact absurd hs (h s)

theorem forall_read_ne_entry {ls : List Line} (h : ∀ l ∈ ls, ∀ s : Start column, s.line ≠ l) :
    ∀ row ∈ ls.map (Row.read column), ∀ number said, row ≠ .entry number said := by
  intro row hrow number said
  obtain ⟨l, hl, rfl⟩ := List.mem_map.1 hrow
  unfold Row.read
  rw [entry?_eq_none_iff.2 (h l hl)]
  dsimp only
  split
  · nofun
  · nofun
  · split <;> nofun

theorem isMarked_of_signed? {sign l text : List Char} (hsign : sign ∈ [codeSign, suggestionSign, linkSign])
    (h : signed? sign l = some text) : isMarked l = true := by
  obtain ⟨indent, s, hl, -⟩ := (signed?_eq_some_iff hsign).1 h
  exact isMarked_iff.2 ⟨sign, hsign, indent, s, hl⟩

/-- A line has one sign at most. -/
theorem signed?_suggestionSign_of_code {l text : List Char} (h : signed? codeSign l = some text) :
    signed? suggestionSign l = none := by
  have hsign : codeSign ∈ [codeSign, suggestionSign, linkSign] := by simp
  obtain ⟨indent, s, rfl, -⟩ := (signed?_eq_some_iff hsign).1 h
  rw [signed?, trimStart_blank_append indent.blank, trimStart_sign_append hsign]
  rfl

/-- The entry that has been read when these lines of a block have been. -/
def soFar (number : Number) (text : List Char) (ls : List Line) : Entry where
  number := number
  message := [' '].intercalate (text :: wrapped ls)
  code := code? ls
  suggestion := suggestion? ls
  isOpen := ls.all (!isMarked ·)

theorem takeWhile_concat {α : Type} (p : α → Bool) (ls : List α) (l : α) :
    (ls ++ [l]).takeWhile p = if ls.all p && p l then ls ++ [l] else ls.takeWhile p := by
  induction ls with
  | nil => cases h : p l <;> simp [h]
  | cons a ls ih =>
    cases h : p a with
    | false => simp [h]
    | true =>
      simp only [List.cons_append, List.takeWhile_cons_of_pos h, ih, List.all_cons, h, Bool.true_and]
      split <;> rfl

theorem wrapped_concat (ls : List Line) (l : Line) :
    wrapped (ls ++ [l]) =
      if ls.all (!isMarked ·) && !isMarked l then wrapped ls ++ [trim l].filter (· ≠ []) else wrapped ls := by
  rw [wrapped, takeWhile_concat]
  split
  case isTrue h =>
    obtain ⟨unmarked, -⟩ := Bool.and_eq_true_iff.1 h
    rw [wrapped, List.takeWhile_eq_self_iff.2 (List.all_eq_true.1 unmarked), List.map_append,
      List.filter_append]
    rfl
  case isFalse => rfl

theorem suggestion?_concat (ls : List Line) (l : Line) :
    suggestion? (ls ++ [l]) = (suggestion? ls).or (signed? suggestionSign l) := by
  rw [suggestion?, List.findSome?_append, List.findSome?_singleton]
  rfl

theorem all_isNone_eq (ls : List Line) :
    (ls.all fun l => (signed? suggestionSign l).isNone) = (suggestion? ls).isNone := by
  rw [Bool.eq_iff_iff, List.all_eq_true, suggestion?, Option.isNone_iff_eq_none, List.findSome?_eq_none_iff]
  simp

theorem code?_concat (ls : List Line) (l : Line) :
    code? (ls ++ [l]) =
      if (suggestion? ls).isNone && (signed? suggestionSign l).isNone then
        (code? ls).or (signed? codeSign l)
      else code? ls := by
  rw [code?, takeWhile_concat, all_isNone_eq]
  split
  case isTrue h =>
    obtain ⟨none, -⟩ := Bool.and_eq_true_iff.1 h
    rw [← all_isNone_eq, List.all_eq_true] at none
    rw [List.findSome?_append, List.findSome?_singleton, code?, List.takeWhile_eq_self_iff.2 none]
  case isFalse => rfl

theorem soFar_nil (number : Number) (text : List Char) : soFar number text [] = .start number text := by
  simp [soFar, Entry.start, wrapped, code?, suggestion?, List.intercalate_singleton]

/-- A marked line goes to the identifier or the suggestion, and ends the message. -/
theorem soFar_concat_of_marked {l : Line} (marked : isMarked l = true) (number : Number)
    (text : List Char) (ls : List Line) :
    soFar number text (ls ++ [l]) =
      ⟨number, (soFar number text ls).message, code? (ls ++ [l]), suggestion? (ls ++ [l]), false⟩ := by
  simp [soFar, wrapped_concat, marked]

/-- Any other line goes to the message, if that has not ended. -/
theorem soFar_concat_of_not_marked {l : Line} (h : isMarked l = false) (number : Number)
    (text : List Char) (ls : List Line) :
    soFar number text (ls ++ [l]) = (soFar number text ls).take (.wrapped (trim l)) := by
  have unsigned {sign : List Char} (hsign : sign ∈ [codeSign, suggestionSign, linkSign]) :
      signed? sign l = none := by
    cases hl : signed? sign l with
    | none => rfl
    | some said =>
      rw [isMarked_of_signed? hsign hl] at h
      cases h
  have code : signed? codeSign l = none := unsigned (by simp)
  have suggestion : signed? suggestionSign l = none := unsigned (by simp)
  by_cases unmarked : ls.all (!isMarked ·) = true
  · by_cases blank : trim l = []
    · simp [Entry.take, soFar, wrapped_concat, code?_concat, suggestion?_concat, code, suggestion, h, blank]
    · simp [Entry.take, soFar, wrapped_concat, code?_concat, suggestion?_concat, code, suggestion, h, blank,
        unmarked, intercalate_cons]
  · simp [Entry.take, soFar, wrapped_concat, code?_concat, suggestion?_concat, code, suggestion, h, unmarked]

theorem take_read {l : Line} (h : ∀ s : Start column, s.line ≠ l) (number : Number) (text : List Char)
    (ls : List Line) :
    (soFar number text ls).take (Row.read column l) = soFar number text (ls ++ [l]) := by
  unfold Row.read
  rw [entry?_eq_none_iff.2 h]
  dsimp only
  cases hcode : signed? codeSign l with
  | some said =>
    have single := signed?_suggestionSign_of_code hcode
    rw [soFar_concat_of_marked (isMarked_of_signed? (by simp) hcode), code?_concat, suggestion?_concat,
      hcode, single]
    rcases Option.eq_none_or_eq_some (suggestion? ls) with earlier | ⟨first, earlier⟩
    · simp [Entry.take, soFar, earlier]
    · simp [Entry.take, soFar, earlier]
  | none =>
    cases hsuggestion : signed? suggestionSign l with
    | some said =>
      rw [soFar_concat_of_marked (isMarked_of_signed? (by simp) hsuggestion), code?_concat,
        suggestion?_concat, hsuggestion]
      simp [Entry.take, soFar]
    | none =>
      dsimp only
      cases marked : isMarked l with
      | true =>
        rw [soFar_concat_of_marked marked, code?_concat, suggestion?_concat, hcode, hsuggestion]
        simp [Entry.take, soFar]
      | false => exact (soFar_concat_of_not_marked marked number text ls).symm

theorem foldl_take_read {more : List Line} (h : ∀ l ∈ more, ∀ s : Start column, s.line ≠ l)
    (number : Number) (text : List Char) (ls : List Line) :
    (more.map (Row.read column)).foldl Entry.take (soFar number text ls) =
      soFar number text (ls ++ more) := by
  induction more generalizing ls with
  | nil => rw [List.append_nil]; rfl
  | cons l more ih =>
    rw [List.forall_mem_cons] at h
    rw [List.map_cons, List.foldl_cons, take_read h.1, ih h.2, List.append_assoc, List.singleton_append]

theorem entriesFrom_of_no_entry {rows : List Row} (h : ∀ row ∈ rows, ∀ number said, row ≠ .entry number said)
    (more : List Row) : entriesFrom none (rows ++ more) = entriesFrom none more := by
  induction rows with
  | nil => rfl
  | cons row rows ih =>
    rw [List.forall_mem_cons] at h
    cases row with
    | entry number said => exact absurd rfl (h.1 number said)
    | _ => exact ih h.2

end Entries

namespace Block

variable {column : Nat} (b : Block column)

def entry : Entry := soFar (.ofNat b.start.number) b.start.text.chars b.more

theorem toDiagnostic?_entry (file : Phrase) :
    b.entry.toDiagnostic? file.chars = if 1 ≤ b.start.number then some (b.diagnostic file) else none := by
  simp only [Entry.toDiagnostic?, entry, soFar, Number.one_le_ofNat_iff]
  rfl

theorem filterMap_toDiagnostic? (file : Phrase) (blocks : List (Block column)) :
    (blocks.map entry).filterMap (Entry.toDiagnostic? file.chars) =
      (blocks.filter (1 ≤ ·.start.number)).map (·.diagnostic file) := by
  induction blocks with
  | nil => rfl
  | cons b blocks ih =>
    rw [List.map_cons, List.filterMap_cons, b.toDiagnostic?_entry, ih, List.filter_cons]
    by_cases counts : 1 ≤ b.start.number
    · simp only [if_pos counts, decide_eq_true counts, if_true, List.map_cons]
    · simp only [if_neg counts, decide_eq_false counts]
      rfl

theorem entriesFrom_lines (current? : Option Entry) (rows : List Row) :
    entriesFrom current? (b.lines.map (Row.read column) ++ rows) =
      current?.toList ++ entriesFrom (some b.entry) rows := by
  have first : Row.read column b.start.line = .entry (.ofNat b.start.number) b.start.text.chars := by
    rw [Row.read, b.start.entry?_line]
  rw [lines, List.map_cons, List.cons_append, first, entriesFrom,
    entriesFrom_append (forall_read_ne_entry b.noStart), ← soFar_nil, foldl_take_read b.noStart,
    List.nil_append, entry]

theorem entriesFrom_flatMap_lines (current? : Option Entry) (blocks : List (Block column)) :
    entriesFrom current? ((blocks.flatMap lines).map (Row.read column)) =
      current?.toList ++ blocks.map entry := by
  induction blocks generalizing current? with
  | nil => rw [List.flatMap_nil, List.map_nil, List.map_nil, List.append_nil]; rfl
  | cons b blocks ih =>
    rw [List.flatMap_cons, List.map_append, b.entriesFrom_lines, ih, List.map_cons,
      Option.toList_some, List.singleton_append]

theorem exists_blocks (column : Nat) (ls : List Line) :
    ∃ (preamble : List Line) (blocks : List (Block column)),
      (∀ l ∈ preamble, ∀ s : Start column, s.line ≠ l) ∧ ls = preamble ++ blocks.flatMap lines := by
  induction ls with
  | nil => exact ⟨[], [], nofun, rfl⟩
  | cons l ls ih =>
    obtain ⟨preamble, blocks, noStart, rfl⟩ := ih
    by_cases h : ∃ s : Start column, s.line = l
    · obtain ⟨s, rfl⟩ := h
      exact ⟨[], ⟨s, preamble, noStart⟩ :: blocks, nofun, rfl⟩
    · exact ⟨l :: preamble, blocks, List.forall_mem_cons.2 ⟨fun s hs => h ⟨s, hs⟩, noStart⟩, rfl⟩

end Block

namespace Part

variable (p : Part)

theorem diagnostics_eq :
    Section.diagnostics ⟨p.title.file.chars, p.opening.column, p.body⟩ = p.diagnostics := by
  rw [Section.diagnostics, body, List.map_append, entriesFrom_of_no_entry (forall_read_ne_entry p.noStart),
    Block.entriesFrom_flatMap_lines, Option.toList_none, List.nil_append, Block.filterMap_toDiagnostic?,
    diagnostics]

theorem isBoundary_of_mem_body : ∀ l ∈ p.body, isBoundary l = false := fun l hl =>
  isBoundary_eq_false_iff.2 (p.noBoundary l hl)

/-- A part is a section, and the search goes on at the boundary after it. -/
theorem sections_lines_append {rest : List Line} (h : ∀ l ∈ rest.head?, ∃ b : Boundary, b.line = l) :
    sections (p.lines ++ rest) =
      ⟨p.title.file.chars, p.opening.column, p.body⟩ :: sections rest := by
  have body : (p.body ++ rest).takeWhile (!isBoundary ·) = p.body := by
    rw [List.takeWhile_append_of_pos fun l hl => by rw [p.isBoundary_of_mem_body l hl]; rfl]
    cases rest with
    | nil => rw [List.takeWhile_nil, List.append_nil]
    | cons l rest =>
      obtain ⟨b, rfl⟩ := h l rfl
      rw [List.takeWhile_cons_of_neg (by rw [b.isBoundary_line]; decide), List.append_nil]
  rw [lines, List.cons_append, List.cons_append, List.cons_append, sections, p.opening.isBoundary_line,
    p.closing.isBoundary_line, p.title.heading?_line, p.opening.messageColumn_line, body,
    sections_append_of_not_boundary p.isBoundary_of_mem_body]
  rfl

/-- A part that begins reaches to the next boundary. -/
theorem exists_of_opens {ls : List Line} (h : Opens ls) :
    ∃ (p : Part) (rest : List Line), (∀ l ∈ rest.head?, ∃ b : Boundary, b.line = l) ∧
      p.lines ++ rest = ls ∧ rest.length < ls.length := by
  obtain ⟨b, t, b', after, rfl⟩ := h
  have split : after.takeWhile (!isBoundary ·) ++ after.dropWhile (!isBoundary ·) = after :=
    List.takeWhile_append_dropWhile
  obtain ⟨preamble, blocks, noStart, hbody⟩ :=
    Block.exists_blocks b.column (after.takeWhile (!isBoundary ·))
  have noBoundary : ∀ l ∈ preamble ++ blocks.flatMap Block.lines, ∀ b : Boundary, b.line ≠ l := by
    rintro l hl b rfl
    have := List.mem_takeWhile_imp (hbody ▸ hl)
    rw [b.isBoundary_line] at this
    cases this
  refine ⟨⟨b, t, b', preamble, blocks, noStart, noBoundary⟩, after.dropWhile (!isBoundary ·), ?_, ?_, ?_⟩
  · intro l hl
    have := List.head?_dropWhile_not (!isBoundary ·) after
    rw [Option.mem_def.1 hl] at this
    exact isBoundary_iff.1 (by simpa using this)
  · rw [lines, body, ← hbody, List.cons_append, List.cons_append, List.cons_append, split]
    rfl
  · have := congrArg List.length split
    simp only [List.length_append, List.length_cons] at this ⊢
    omega

end Part

theorem sections_cons_of_not_opens {l : Line} {ls : List Line} (h : ¬ Opens (l :: ls)) :
    sections (l :: ls) = sections ls := by
  rcases ls with _ | ⟨title, _ | ⟨closing, rest⟩⟩
  · simp [sections]
  · simp [sections]
  · rw [sections]
    split
    case isTrue boundaries =>
      obtain ⟨hl, hclosing⟩ := Bool.and_eq_true_iff.1 boundaries
      cases htitle : heading? title with
      | none => rfl
      | some file =>
        obtain ⟨b, rfl⟩ := isBoundary_iff.1 hl
        obtain ⟨b', rfl⟩ := isBoundary_iff.1 hclosing
        obtain ⟨t, rfl, -⟩ := heading?_eq_some_iff.1 htitle
        exact absurd ⟨b, t, b', ⟨rest, rfl⟩⟩ h
    case isFalse => rfl

namespace Divides

variable {ls : List Line} {parts : List Part}

theorem sections_eq (h : Divides ls parts) :
    sections ls = parts.map fun p => ⟨p.title.file.chars, p.opening.column, p.body⟩ := by
  induction h with
  | nil => rfl
  | skip none _ ih => rw [sections_cons_of_not_opens none, ih]
  | part ends _ ih => rw [Part.sections_lines_append _ ends, ih, List.map_cons]

theorem exists_of (ls : List Line) : ∃ parts, Divides ls parts := by
  -- by the number of lines, since a part takes more than one
  induction hn : ls.length using Nat.strongRecOn generalizing ls with
  | ind n ih =>
    subst hn
    cases ls with
    | nil => exact ⟨[], .nil⟩
    | cons l ls =>
      by_cases h : Opens (l :: ls)
      · obtain ⟨p, rest, ends, hp, hlt⟩ := Part.exists_of_opens h
        obtain ⟨parts, hparts⟩ := ih rest.length hlt rest rfl
        exact ⟨p :: parts, hp ▸ .part ends hparts⟩
      · obtain ⟨parts, hparts⟩ := ih ls.length (Nat.lt_succ_self _) ls rfl
        exact ⟨parts, .skip h hparts⟩

end Divides

/-- The diagnostics of a report, whatever it is, are those of its parts. -/
theorem parseReport_eq_iff {report : String} {ds : List Diagnostic} :
    parseReport report = ds ↔
      ∃ parts, Divides (lines report.toList) parts ∧ parts.flatMap Part.diagnostics = ds := by
  have eq {parts : List Part} (h : Divides (lines report.toList) parts) :
      parseReport report = parts.flatMap Part.diagnostics := by
    simp only [parseReport_eq, h.sections_eq, List.flatMap_map, Part.diagnostics_eq]
  -- a report is divided in some way, and each way to divide it has the same diagnostics
  constructor
  · rintro rfl
    obtain ⟨parts, h⟩ := Divides.exists_of (lines report.toList)
    exact ⟨parts, h, (eq h).symm⟩
  · rintro ⟨parts, h, rfl⟩
    exact eq h

/-- A boundary that ends a heading does not begin another part. -/
example : parseReport " -- --\n Line a\n -- --\n Line b\n -- --\n  1 one" = [] := by decide +kernel

end Mender.Report
