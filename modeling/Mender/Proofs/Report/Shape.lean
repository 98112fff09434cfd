import Mender.Proofs.Number.Numeral
import Mender.Proofs.Text.Marks
import Mender.Proofs.Text.Phrase
import Mender.Report.Row

/-! The lines of any report by what they are written as: headings, the first lines of entries, lines with
a sign and boundaries, with whatever blanks stand in them and around them. Reading a line finds such a
writing of it exactly if there is one. -/

namespace Mender.Report

open Mender.Text

section Pieces

theorem oneLine?_eq_some_iff {s text : List Char} :
    oneLine? s = some text ↔ trim s = text ∧ ∀ c ∈ text, isLineEnd c = false := by
  unfold oneLine?
  dsimp only
  split
  case isTrue h =>
    obtain ⟨c, hc, hend⟩ := List.any_eq_true.1 h
    refine iff_of_false (by simp) ?_
    rintro ⟨rfl, none⟩
    rw [none c hc] at hend
    cases hend
  case isFalse h =>
    rw [Option.some.injEq]
    refine ⟨?_, And.left⟩
    rintro rfl
    exact ⟨rfl, by simpa using h⟩

theorem oneLine?_between (a b : Blanks) (p : Phrase) :
    oneLine? (a.chars ++ (p.chars ++ b.chars)) = some p.chars :=
  oneLine?_eq_some_iff.2 ⟨p.trim_between a b, p.oneLine⟩

theorem setOff?_eq_some_iff {s text : List Char} :
    setOff? s = some text ↔ ∃ (gap tail : Blanks) (p : Phrase),
      gap.chars ≠ [] ∧ p.chars = text ∧ s = gap.chars ++ (p.chars ++ tail.chars) := by
  constructor
  · intro h
    cases s with
    | nil => cases h
    | cons c s =>
      rw [setOff?] at h
      split at h
      case isTrue hblank =>
        obtain ⟨hc, hne⟩ := Bool.and_eq_true_iff.1 hblank
        obtain ⟨rfl, inline⟩ := oneLine?_eq_some_iff.1 h
        obtain ⟨a, b, hs⟩ := exists_trim s
        let p : Phrase := ⟨trim s, by simpa using hne, head_trim s, getLast?_trimEnd _, inline⟩
        refine ⟨⟨c :: a.chars, List.forall_mem_cons.2 ⟨hc, a.blank⟩⟩, b, p, List.cons_ne_nil _ _, rfl, ?_⟩
        exact congrArg (c :: ·) hs
      case isFalse => cases h
  · rintro ⟨⟨gap, blank⟩, tail, p, hgap, rfl, rfl⟩
    cases gap with
    | nil => exact absurd rfl hgap
    | cons c gap =>
      rw [List.forall_mem_cons] at blank
      have htrim := p.trim_between ⟨gap, blank.2⟩ tail
      rw [List.cons_append, setOff?, htrim, blank.1, if_pos (by simpa using p.ne_nil)]
      exact oneLine?_between ⟨gap, blank.2⟩ tail p

end Pieces

/-- A heading: the word `Line`, and behind it the name of a file. -/
structure Title where
  indent : Blanks
  gap : Blanks
  file : Phrase
  tail : Blanks
  gap_ne_nil : gap.chars ≠ []

namespace Title

def line (t : Title) : Line :=
  t.indent.chars ++ ("Line".toList ++ (t.gap.chars ++ (t.file.chars ++ t.tail.chars)))

theorem heading?_line (t : Title) : heading? t.line = some t.file.chars := by
  have start : trimStart t.line =
      "Line".toList ++ (t.gap.chars ++ (t.file.chars ++ t.tail.chars)) := by
    rw [line, trimStart_blank_append t.indent.blank]
    exact trimStart_cons (by decide) _
  rw [heading?, start, dropMark?_append, Option.bind_some]
  exact setOff?_eq_some_iff.2 ⟨t.gap, t.tail, t.file, t.gap_ne_nil, rfl, rfl⟩

end Title

theorem heading?_eq_some_iff {l : Line} {file : List Char} :
    heading? l = some file ↔ ∃ t : Title, t.line = l ∧ t.file.chars = file := by
  constructor
  · intro h
    obtain ⟨s, hs, hfile⟩ := Option.bind_eq_some_iff.1 h
    obtain ⟨gap, tail, p, hgap, rfl, rfl⟩ := setOff?_eq_some_iff.1 hfile
    obtain ⟨indent, hl, blank⟩ := exists_append_trimStart l
    refine ⟨⟨⟨indent, blank⟩, gap, p, tail, hgap⟩, ?_, rfl⟩
    rw [hl, eq_of_dropMark? hs]
    rfl
  · rintro ⟨t, rfl, rfl⟩
    exact t.heading?_line

theorem heading?_eq_none_iff {l : Line} : heading? l = none ↔ ∀ t : Title, t.line ≠ l := by
  rw [Option.eq_none_iff_forall_ne_some]
  constructor
  · rintro none t rfl
    exact none _ t.heading?_line
  · intro none file h
    obtain ⟨t, ht, -⟩ := heading?_eq_some_iff.1 h
    exact none t ht

/-- The first line of an entry, where messages are in this column: its number left of the column, and
behind it the beginning of the message. -/
structure Start (column : Nat) where
  indent : Blanks
  digits : List Char
  gap : Blanks
  text : Phrase
  tail : Blanks
  lt_column : indent.chars.length < column
  digits_ne_nil : digits ≠ []
  isDigit : ∀ c ∈ digits, c.isDigit = true
  gap_ne_nil : gap.chars ≠ []

namespace Start

variable {column : Nat}

def line (s : Start column) : Line :=
  s.indent.chars ++ (s.digits ++ (s.gap.chars ++ (s.text.chars ++ s.tail.chars)))

def number (s : Start column) : Nat := Nat.ofDigitChars 10 s.digits 0

theorem entry?_line (s : Start column) :
    entry? column s.line = some (.entry (.ofNat s.number) s.text.chars) := by
  obtain ⟨d, ds, hds⟩ := List.exists_cons_of_ne_nil s.digits_ne_nil
  obtain ⟨g, gs, hgs⟩ := List.exists_cons_of_ne_nil s.gap_ne_nil
  have digit : d.isDigit = true := s.isDigit d (by rw [hds]; exact List.mem_cons_self)
  have blank : isBlank g = true := s.gap.blank g (by rw [hgs]; exact List.mem_cons_self)
  have noDigit : ¬ g.isDigit = true := fun h => by
    rw [isBlank_of_isDigit h] at blank
    cases blank
  have start : trimStart s.line = s.digits ++ (s.gap.chars ++ (s.text.chars ++ s.tail.chars)) := by
    rw [line, trimStart_blank_append s.indent.blank, hds, List.cons_append]
    exact trimStart_cons (isBlank_of_isDigit digit) _
  have digits : (trimStart s.line).takeWhile Char.isDigit = s.digits := by
    rw [start, List.takeWhile_append_of_pos s.isDigit, hgs, List.cons_append,
      List.takeWhile_cons_of_neg noDigit, List.append_nil]
  have rest : (trimStart s.line).dropWhile Char.isDigit =
      s.gap.chars ++ (s.text.chars ++ s.tail.chars) := by
    rw [start, List.dropWhile_append_of_pos s.isDigit, hgs, List.cons_append,
      List.dropWhile_cons_of_neg noDigit]
  have indent : s.line.length - (trimStart s.line).length = s.indent.chars.length := by
    rw [start, line, List.length_append, Nat.add_sub_cancel]
  have near : ¬ (s.digits = [] ∨ column ≤ s.indent.chars.length) :=
    fun h => h.elim s.digits_ne_nil (Nat.not_le.2 s.lt_column)
  have text : setOff? (s.gap.chars ++ (s.text.chars ++ s.tail.chars)) = some s.text.chars :=
    setOff?_eq_some_iff.2 ⟨s.gap, s.tail, s.text, s.gap_ne_nil, rfl, rfl⟩
  unfold entry?
  simp only [digits, rest, indent, if_neg near, text, Option.map_some, readDecimal,
    readDigits?_of_forall_isDigit s.digits_ne_nil s.isDigit, Option.getD_some, number]

end Start

theorem entry?_eq_some_iff {column : Nat} {l : Line} {row : Row} :
    entry? column l = some row ↔
      ∃ s : Start column, s.line = l ∧ row = .entry (.ofNat s.number) s.text.chars := by
  constructor
  · intro h
    have hrow := h
    unfold entry? at h
    dsimp only at h
    split at h
    case isTrue => cases h
    case isFalse hnear =>
      obtain ⟨digits_ne_nil, near⟩ := not_or.1 hnear
      obtain ⟨said, hsaid, -⟩ := Option.map_eq_some_iff.1 h
      obtain ⟨gap, tail, p, hgap, rfl, hrest⟩ := setOff?_eq_some_iff.1 hsaid
      obtain ⟨indent, hl, blank⟩ := exists_append_trimStart l
      have length := congrArg List.length hl
      rw [List.length_append] at length
      let s : Start column := ⟨⟨indent, blank⟩, _, gap, p, tail, by dsimp only; omega, digits_ne_nil,
        fun _ => List.mem_takeWhile_imp, hgap⟩
      have hs : s.line = l := by
        rw [Start.line, ← hrest, List.takeWhile_append_dropWhile, ← hl]
      refine ⟨s, hs, ?_⟩
      rw [← hs, s.entry?_line] at hrow
      exact (Option.some.inj hrow).symm
  · rintro ⟨s, rfl, rfl⟩
    exact s.entry?_line

section Signs

variable {sign : List Char} {l : Line}

theorem trimStart_sign_append (hsign : sign ∈ [codeSign, suggestionSign, linkSign]) (s : List Char) :
    trimStart (sign ++ s) = sign ++ s := by
  simp only [List.mem_cons, List.not_mem_nil, or_false] at hsign
  rcases hsign with rfl | rfl | rfl <;> exact trimStart_cons (by decide) _

theorem signed?_eq_some_iff (hsign : sign ∈ [codeSign, suggestionSign, linkSign]) {text : List Char} :
    signed? sign l = some text ↔
      ∃ (indent : Blanks) (s : List Char), l = indent.chars ++ (sign ++ s) ∧ oneLine? s = some text := by
  constructor
  · intro h
    obtain ⟨s, hs, htext⟩ := Option.bind_eq_some_iff.1 h
    obtain ⟨indent, hl, blank⟩ := exists_append_trimStart l
    exact ⟨⟨indent, blank⟩, s, by rw [← eq_of_dropMark? hs, ← hl], htext⟩
  · rintro ⟨indent, s, rfl, htext⟩
    rw [signed?, trimStart_blank_append indent.blank, trimStart_sign_append hsign, dropMark?_append,
      Option.bind_some, htext]

theorem isMarked_iff : isMarked l = true ↔ ∃ sign ∈ [codeSign, suggestionSign, linkSign],
    ∃ (indent : Blanks) (s : List Char), l = indent.chars ++ (sign ++ s) := by
  rw [isMarked, List.any_eq_true]
  refine exists_congr fun sign => and_congr_right fun hsign => ?_
  rw [List.isPrefixOf_iff_prefix]
  constructor
  · rintro ⟨s, hs⟩
    obtain ⟨indent, hl, blank⟩ := exists_append_trimStart l
    exact ⟨⟨indent, blank⟩, s, by rw [hs, ← hl]⟩
  · rintro ⟨indent, s, rfl⟩
    exact ⟨s, by rw [trimStart_blank_append indent.blank, trimStart_sign_append hsign]⟩

end Signs

structure Stretch where
  gap : Blanks
  dashes : Nat
  gap_ne_nil : gap.chars ≠ []
  two_le_dashes : 2 ≤ dashes

def Stretch.chars (s : Stretch) : List Char := s.gap.chars ++ List.replicate s.dashes '-'

/-- A boundary: two stretches of dashes or more. -/
structure Boundary where
  indent : Blanks
  first : Nat
  second : Stretch
  more : List Stretch
  tail : Blanks
  two_le_first : 2 ≤ first

section Boundaries

theorem not_isBlank_of_mem_dashes {n : Nat} : ∀ c ∈ List.replicate n '-', isBlank c = false := by
  intro c hc
  rw [List.eq_of_mem_replicate hc]
  decide

theorem replicate_dash_ne_nil {n : Nat} (h : 2 ≤ n) : List.replicate n '-' ≠ [] := by
  simp only [ne_eq, List.replicate_eq_nil_iff]
  omega

theorem words_dashes_append {n : Nat} (hn : 2 ≤ n) (stretches : List Stretch) (tail : Blanks) :
    words (List.replicate n '-' ++ (stretches.flatMap Stretch.chars ++ tail.chars)) =
      List.replicate n '-' :: stretches.map fun s => List.replicate s.dashes '-' := by
  induction stretches generalizing n with
  | nil =>
    have none : words tail.chars = [] := by
      rw [← List.append_nil tail.chars, words_blank_append tail.blank]
      rfl
    rw [List.flatMap_nil, List.nil_append, List.map_nil, words_append_of_head (replicate_dash_ne_nil hn)
      not_isBlank_of_mem_dashes fun c hc => tail.blank c (List.mem_of_head? hc), none]
  | cons s stretches ih =>
    obtain ⟨c, cs, hgap⟩ := List.exists_cons_of_ne_nil s.gap_ne_nil
    rw [List.flatMap_cons, Stretch.chars, List.append_assoc, List.append_assoc,
      words_append_of_head (replicate_dash_ne_nil hn) not_isBlank_of_mem_dashes ?_,
      words_blank_append s.gap.blank, ih s.two_le_dashes, List.map_cons]
    rw [hgap]
    rintro c ⟨⟩
    exact s.gap.blank c (by rw [hgap]; exact List.mem_cons_self)

theorem exists_stretches {runs : List (List Char)}
    (h : ∀ run ∈ runs, 2 ≤ run.length ∧ ∀ c ∈ run, c = '-') {s : List Char} (hs : words s = runs)
    (starts : ∀ c ∈ s.head?, isBlank c = true) :
    ∃ (stretches : List Stretch) (tail : Blanks), stretches.length = runs.length ∧
      s = stretches.flatMap Stretch.chars ++ tail.chars := by
  induction runs generalizing s with
  | nil =>
    obtain ⟨tail, rfl⟩ := exists_blanks_of_words_eq_nil hs
    exact ⟨[], tail, rfl, rfl⟩
  | cons run runs ih =>
    obtain ⟨⟨two_le, dashes⟩, hruns⟩ := List.forall_mem_cons.1 h
    obtain ⟨gap, r, rfl, hr, ends⟩ := exists_of_words_eq_cons hs
    obtain ⟨stretches, tail, hlen, rfl⟩ := ih hruns hr ends
    obtain ⟨n, rfl⟩ : ∃ n, run = List.replicate n '-' := ⟨_, List.eq_replicate_iff.2 ⟨rfl, dashes⟩⟩
    rw [List.length_replicate] at two_le
    -- the text begins with a blank, and this run does not
    have hgap : gap.chars ≠ [] := by
      intro none
      obtain ⟨m, rfl⟩ := Nat.exists_eq_add_of_le' two_le
      rw [none, List.replicate_succ] at starts
      cases starts '-' rfl
    exact ⟨⟨gap, n, hgap, two_le⟩ :: stretches, tail, congrArg (· + 1) hlen, by simp [Stretch.chars]⟩

end Boundaries

namespace Boundary

variable (b : Boundary)

def line : Line :=
  b.indent.chars ++
    (List.replicate b.first '-' ++ ((b.second :: b.more).flatMap Stretch.chars ++ b.tail.chars))

def column : Nat := b.indent.chars.length + b.first + b.second.gap.chars.length

theorem isBoundary_line : isBoundary b.line = true := by
  rw [isBoundary, line, words_blank_append b.indent.blank, words_dashes_append b.two_le_first]
  simp [b.two_le_first, b.second.two_le_dashes, fun s : Stretch => s.two_le_dashes]

theorem messageColumn_line : messageColumn b.line = b.column := by
  obtain ⟨c, cs, hgap⟩ := List.exists_cons_of_ne_nil b.second.gap_ne_nil
  have blank : isBlank c = true := b.second.gap.blank c (by rw [hgap]; exact List.mem_cons_self)
  have hdash : c ≠ '-' := by
    rintro rfl
    cases blank
  have dashes {n : Nat} (hn : 2 ≤ n) (s : List Char) :
      trimStart (List.replicate n '-' ++ s) = List.replicate n '-' ++ s := by
    obtain ⟨m, rfl⟩ := Nat.exists_eq_add_of_le' hn
    exact trimStart_cons (by decide) _
  have start : trimStart b.line =
      List.replicate b.first '-' ++ ((b.second :: b.more).flatMap Stretch.chars ++ b.tail.chars) := by
    rw [line, trimStart_blank_append b.indent.blank, dashes b.two_le_first]
  have after : trimStart ((trimStart b.line).dropWhile (· == '-')) =
      List.replicate b.second.dashes '-' ++ (b.more.flatMap Stretch.chars ++ b.tail.chars) := by
    rw [start, List.dropWhile_append_of_pos (by simp), List.flatMap_cons, Stretch.chars,
      List.append_assoc, List.append_assoc, hgap, List.cons_append,
      List.dropWhile_cons_of_neg (by simpa using hdash), ← List.cons_append, ← hgap, trimStart_blank_append b.second.gap.blank, dashes b.second.two_le_dashes]
  rw [messageColumn, after, line, column, List.flatMap_cons, Stretch.chars]
  simp only [List.length_append, List.length_replicate]
  omega

end Boundary

theorem isBoundary_iff {l : Line} : isBoundary l = true ↔ ∃ b : Boundary, b.line = l := by
  constructor
  · intro h
    obtain ⟨several, runs⟩ := Bool.and_eq_true_iff.1 h
    have two := of_decide_eq_true several
    have dashes : ∀ run ∈ words l, 2 ≤ run.length ∧ ∀ c ∈ run, c = '-' := by
      simpa using runs
    cases hwords : words l with
    | nil => simp [hwords] at two
    | cons run rest =>
      rw [hwords, List.forall_mem_cons] at dashes
      rw [hwords, List.length_cons] at two
      obtain ⟨indent, s, rfl, hs, starts⟩ := exists_of_words_eq_cons hwords
      obtain ⟨stretches, tail, hlen, rfl⟩ := exists_stretches dashes.2 hs starts
      cases stretches with
      | nil => exact absurd two (by rw [← hlen]; decide)
      | cons second more =>
        refine ⟨⟨indent, run.length, second, more, tail, dashes.1.1⟩, ?_⟩
        rw [Boundary.line, ← List.eq_replicate_iff.2 ⟨rfl, dashes.1.2⟩]
  · rintro ⟨b, rfl⟩
    exact b.isBoundary_line

theorem isBoundary_eq_false_iff {l : Line} : isBoundary l = false ↔ ∀ b : Boundary, b.line ≠ l := by
  rw [← Bool.not_eq_true, isBoundary_iff, not_exists]

end Mender.Report
