import Mender.Proofs.Markup.Content

/-! A CDATA section that stands alone between blanks is read as it was written, whatever it holds. What
looks like its end is not taken for it as long as something follows that is not blank, so a search for
the first end that will do comes to the last one there is. -/

namespace Mender.Markup

open Mender.Text

variable {raw content s : List Char}

/-- A section is found where one stands alone, and nowhere else. -/
theorem cdata?_eq_some_iff :
    cdata? raw = some content ↔ ∃ u v : Blanks, raw = u.chars ++ (cdata content ++ v.chars) := by
  constructor
  · intro h
    obtain ⟨u, v, hraw, blankBefore, blankAfter⟩ := exists_of_cdata? h
    exact ⟨⟨u, blankBefore⟩, ⟨v, blankAfter⟩, hraw⟩
  · rintro ⟨u, v, rfl⟩
    exact cdata?_between u v content

section Search

/-- Whether the text ends a section here, with nothing but blanks after it. -/
def closes (s : List Char) : Bool := (dropMark? cdataEnd s).any (·.all isBlank)

/-- What stands before the first place that ends a section with nothing but blanks after it. -/
def untilClosed? : List Char → Option (List Char)
  | [] => none
  | c :: s => if closes (c :: s) then some [] else (untilClosed? s).map (c :: ·)

/-- The shortest content that a section may have that stands alone between blanks. -/
def shortestContent? (raw : List Char) : Option (List Char) :=
  (dropMark? cdataStart (trimStart raw)).bind untilClosed?

theorem closes_iff : closes s = true ↔ ∃ v : Blanks, s = cdataEnd ++ v.chars := by
  rw [closes, Option.any_eq_true]
  constructor
  · rintro ⟨r, hr, blank⟩
    exact ⟨⟨r, by simpa using blank⟩, eq_of_dropMark? hr⟩
  · rintro ⟨v, rfl⟩
    exact ⟨v.chars, dropMark?_append _ _, by simpa using v.blank⟩

/-- A text that ends a section somewhere, with nothing but blanks after it, does so in one place. -/
theorem eq_nil_of_closes {v : Blanks} (h : closes (content ++ (cdataEnd ++ v.chars)) = true) :
    content = [] := by
  obtain ⟨w, hw⟩ := closes_iff.1 h
  -- both ways to take the text apart leave the same when the blanks are trimmed off
  have long := trimEnd_append_cdataEnd content v
  have short := trimEnd_append_cdataEnd [] w
  rw [List.append_assoc, hw] at long
  rw [List.nil_append] at short
  exact List.append_left_eq_self.1 (long.symm.trans short)

theorem untilClosed?_append (content : List Char) (v : Blanks) :
    untilClosed? (content ++ (cdataEnd ++ v.chars)) = some content := by
  induction content with
  | nil => exact if_pos (closes_iff.2 ⟨v, rfl⟩)
  | cons c content ih =>
    have later : ¬ closes (c :: content ++ (cdataEnd ++ v.chars)) = true := fun h =>
      List.cons_ne_nil _ _ (eq_nil_of_closes h)
    rw [List.cons_append] at later ⊢
    rw [untilClosed?, if_neg later, ih, Option.map_some]

theorem exists_of_untilClosed? (h : untilClosed? s = some content) :
    ∃ v : Blanks, s = content ++ (cdataEnd ++ v.chars) := by
  induction s generalizing content with
  | nil => cases h
  | cons c s ih =>
    rw [untilClosed?] at h
    split at h
    case isTrue here =>
      cases h
      exact closes_iff.1 here
    case isFalse =>
      obtain ⟨content, hs, rfl⟩ := Option.map_eq_some_iff.1 h
      obtain ⟨v, rfl⟩ := ih hs
      exact ⟨v, rfl⟩

theorem shortestContent?_eq_some_iff :
    shortestContent? raw = some content ↔
      ∃ u v : Blanks, raw = u.chars ++ (cdata content ++ v.chars) := by
  constructor
  · intro h
    obtain ⟨s, hs, hcontent⟩ := Option.bind_eq_some_iff.1 h
    obtain ⟨u, hu, blank⟩ := exists_append_trimStart raw
    obtain ⟨v, rfl⟩ := exists_of_untilClosed? hcontent
    refine ⟨⟨u, blank⟩, v, ?_⟩
    rw [hu, eq_of_dropMark? hs, cdata, List.append_assoc, List.append_assoc]
  · rintro ⟨u, v, rfl⟩
    rw [shortestContent?, trimStart_between, dropMark?_append, Option.bind_some, List.append_assoc,
      untilClosed?_append]

/-- The first end that will do is the last one. -/
theorem cdata?_eq_shortestContent? (raw : List Char) : cdata? raw = shortestContent? raw :=
  Option.ext fun _ => cdata?_eq_some_iff.trans shortestContent?_eq_some_iff.symm

end Search

/-- A section between blanks is read as it was written, and the search for its first end finds the same. -/
theorem readText_section (u v : Blanks) (content : List Char) :
    readText (u.chars ++ (cdata content ++ v.chars)) = content ∧
      shortestContent? (u.chars ++ (cdata content ++ v.chars)) = some content := by
  refine ⟨?_, shortestContent?_eq_some_iff.2 ⟨u, v, rfl⟩⟩
  rw [readText, cdata?_between]

example : readText " <![CDATA[a]]> ]]]>\n".toList = "a]]> ]".toList := by decide +kernel

end Mender.Markup
