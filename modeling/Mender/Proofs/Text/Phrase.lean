import Mathlib.Data.List.TakeWhile
import Mender.Proofs.Text.Lines

/-! Texts on a line, and the blanks between them: how they are trimmed, and which words they are made
of. -/

namespace Mender.Text

/-- Blanks that stay on their line. -/
structure Gap where
  chars : List Char
  blank : ∀ c ∈ chars, isBlank c = true
  inline : '\n' ∉ chars

/-- Blanks of any kind, line breaks among them. -/
structure Blanks where
  chars : List Char
  blank : ∀ c ∈ chars, isBlank c = true

def Blanks.empty : Blanks := ⟨[], nofun⟩

theorem Blanks.not_mem (b : Blanks) {c : Char} (h : isBlank c = false) : c ∉ b.chars := by
  intro hmem
  rw [b.blank c hmem] at h
  cases h

def Gap.blanks (g : Gap) : Blanks := ⟨g.chars, g.blank⟩

/-- A text on one line, with no blank at either end. -/
structure Phrase where
  chars : List Char
  ne_nil : chars ≠ []
  starts : ∀ c ∈ chars.head?, isBlank c = false
  ends : ∀ c ∈ chars.getLast?, isBlank c = false
  oneLine : ∀ c ∈ chars, isLineEnd c = false

theorem trimStart_cons {c : Char} (h : isBlank c = false) (s : List Char) :
    trimStart (c :: s) = c :: s := by
  rw [trimStart, List.dropWhile_cons, h]
  rfl

theorem trimStart_of_head {s : List Char} (h : ∀ c ∈ s.head?, isBlank c = false) : trimStart s = s := by
  cases s with
  | nil => rfl
  | cons c s => exact trimStart_cons (h c rfl) s

theorem trimEnd_of_getLast {s : List Char} (h : ∀ c ∈ s.getLast?, isBlank c = false) :
    trimEnd s = s := by
  have := trimStart_of_head (s := s.reverse) (by rwa [List.head?_reverse])
  rw [trimEnd, dropEndWhile, ← trimStart, this, List.reverse_reverse]

theorem trim_append_blank {b : List Char} (h : ∀ c ∈ b, isBlank c = true) (s : List Char) :
    trim (s ++ b) = trim s := by
  rw [trim, trimStart, List.dropWhile_append]
  split
  case isTrue hs =>
    have none : trimStart b = [] := by simpa [trimStart] using h
    rw [trim, trimStart, List.isEmpty_iff.1 hs, ← trimStart, none]
  case isFalse => exact trimEnd_append_blank h

section Trimmed

theorem head_trimStart (s : List Char) : ∀ c ∈ (trimStart s).head?, isBlank c = false := by
  intro c hc
  have := List.head?_dropWhile_not isBlank s
  rw [← trimStart, Option.mem_def.1 hc] at this
  exact this

theorem exists_append_trimStart (s : List Char) :
    ∃ b, s = b ++ trimStart s ∧ ∀ c ∈ b, isBlank c = true :=
  ⟨s.takeWhile isBlank, List.takeWhile_append_dropWhile.symm, fun _ => List.mem_takeWhile_imp⟩

theorem exists_trimEnd_append (s : List Char) :
    ∃ b, s = trimEnd s ++ b ∧ ∀ c ∈ b, isBlank c = true := by
  refine ⟨(s.reverse.takeWhile isBlank).reverse, (dropEndWhile_append_takeEnd isBlank s).symm, ?_⟩
  intro c hc
  exact List.mem_takeWhile_imp (List.mem_reverse.1 hc)

theorem head_trim (s : List Char) : ∀ c ∈ (trim s).head?, isBlank c = false := by
  intro c hc
  obtain ⟨b, hb, -⟩ := exists_trimEnd_append (trimStart s)
  refine head_trimStart s c ?_
  rw [hb, List.head?_append, ← trim, Option.mem_def.1 hc]
  rfl

theorem getLast?_trimEnd (s : List Char) : ∀ c ∈ (trimEnd s).getLast?, isBlank c = false := by
  intro c hc
  rw [trimEnd, dropEndWhile, List.getLast?_reverse] at hc
  have := List.head?_dropWhile_not isBlank s.reverse
  rw [Option.mem_def.1 hc] at this
  exact this

theorem exists_trim (s : List Char) : ∃ a b : Blanks, s = a.chars ++ (trim s ++ b.chars) := by
  obtain ⟨a, ha, blankBefore⟩ := exists_append_trimStart s
  obtain ⟨b, hb, blankAfter⟩ := exists_trimEnd_append (trimStart s)
  exact ⟨⟨a, blankBefore⟩, ⟨b, blankAfter⟩, by rw [trim, ← hb, ← ha]⟩

end Trimmed

namespace Gap

theorem trimStart_append (g : Gap) (s : List Char) : trimStart (g.chars ++ s) = trimStart s :=
  trimStart_blank_append g.blank

end Gap

namespace Phrase

variable (p : Phrase)

theorem trimStart_eq : trimStart p.chars = p.chars := trimStart_of_head p.starts

theorem trim_blank_append {b : List Char} (h : ∀ c ∈ b, isBlank c = true) :
    trim (b ++ p.chars) = p.chars := by
  rw [trim, trimStart_blank_append h, p.trimStart_eq, trimEnd_of_getLast p.ends]

theorem trim_between (a b : Blanks) : trim (a.chars ++ (p.chars ++ b.chars)) = p.chars := by
  rw [← List.append_assoc, trim_append_blank b.blank, p.trim_blank_append a.blank]

theorem newline_not_mem : '\n' ∉ p.chars := fun h => by
  have := p.oneLine _ h
  cases this

end Phrase

section Words

theorem words_append_cons {c : Char} (hc : isBlank c = true) (s t : List Char) :
    words (s ++ c :: t) = words s ++ words t := by
  rw [words, splitWhere_append_cons hc, List.filter_append, words, words]

theorem words_blank_append {b : List Char} (h : ∀ c ∈ b, isBlank c = true) (s : List Char) :
    words (b ++ s) = words s := by
  induction b with
  | nil => rfl
  | cons c b ih =>
    rw [List.forall_mem_cons] at h
    exact (words_append_cons h.1 [] (b ++ s)).trans (ih h.2)

theorem words_trimStart (s : List Char) : words (trimStart s) = words s := by
  obtain ⟨b, hs, blank⟩ := exists_append_trimStart s
  have same := words_blank_append blank (trimStart s)
  rw [← hs] at same
  exact same.symm

theorem words_of_forall_not {s : List Char} (hne : s ≠ []) (h : ∀ c ∈ s, isBlank c = false) :
    words s = [s] := by
  rw [words, splitWhere_of_forall_not h, List.filter_cons_of_pos (by simpa using hne)]
  rfl

theorem words_cons {c : Char} (hc : isBlank c = false) (s : List Char) :
    ∃ w ws, words (c :: s) = (c :: w) :: ws := by
  rw [words, splitWhere_cons, hc, if_neg Bool.false_ne_true]
  obtain ⟨w, ws, hs⟩ := List.exists_cons_of_ne_nil (splitWhere_ne_nil isBlank s)
  rw [hs]
  exact ⟨w, _, rfl⟩

theorem words_append_of_head {w s : List Char} (hne : w ≠ []) (hw : ∀ c ∈ w, isBlank c = false)
    (hs : ∀ c ∈ s.head?, isBlank c = true) : words (w ++ s) = w :: words s := by
  cases s with
  | nil => rw [List.append_nil, words_of_forall_not hne hw]; rfl
  | cons c s =>
    have hc := hs c rfl
    rw [words_append_cons hc, words_of_forall_not hne hw, ← List.nil_append (c :: s),
      words_append_cons hc]
    rfl

theorem exists_of_words_eq_cons {s w : List Char} {ws : List (List Char)} (h : words s = w :: ws) :
    ∃ (a : Blanks) (r : List Char), s = a.chars ++ (w ++ r) ∧ words r = ws ∧
      ∀ c ∈ r.head?, isBlank c = true := by
  obtain ⟨a, hs, blank⟩ := exists_append_trimStart s
  rw [← words_trimStart] at h
  have starts := head_trimStart s
  generalize trimStart s = u at h hs starts
  have split : u.takeWhile (!isBlank ·) ++ u.dropWhile (!isBlank ·) = u := List.takeWhile_append_dropWhile
  have solid : ∀ c ∈ u.takeWhile (!isBlank ·), isBlank c = false := fun c hc => by
    simpa using List.mem_takeWhile_imp hc
  have ends : ∀ c ∈ (u.dropWhile (!isBlank ·)).head?, isBlank c = true := by
    intro c hc
    have := List.head?_dropWhile_not (!isBlank ·) u
    rw [Option.mem_def.1 hc] at this
    simpa using this
  have hne : u.takeWhile (!isBlank ·) ≠ [] := by
    cases u with
    | nil => cases h
    | cons c u => simp [starts c rfl]
  rw [← split, words_append_of_head hne solid ends] at h
  obtain ⟨rfl, hws⟩ := List.cons.inj h
  exact ⟨⟨a, blank⟩, _, by rw [split, hs], hws, ends⟩

theorem exists_blanks_of_words_eq_nil {s : List Char} (h : words s = []) : ∃ b : Blanks, s = b.chars := by
  obtain ⟨b, hs, blank⟩ := exists_append_trimStart s
  rw [← words_trimStart] at h
  have starts := head_trimStart s
  cases hu : trimStart s with
  | nil => exact ⟨⟨b, blank⟩, by rw [hs, hu, List.append_nil]⟩
  | cons c u =>
    rw [hu] at h starts
    obtain ⟨w, ws, hw⟩ := words_cons (starts c rfl) u
    rw [hw] at h
    cases h

end Words

end Mender.Text
