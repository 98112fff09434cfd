import Mender.Proofs.Markup.Element
import Mender.Proofs.Text.Phrase

/-! What is read of the content of an element. A CDATA section is read as it was written, and so is an
escaped text on lines of its own. No reading adds a slash or loses one, so what reads like a text has as
many slashes as the text. -/

namespace Mender.Text

theorem dropEndMark?_append (mark s : List Char) : dropEndMark? mark (s ++ mark) = some s := by
  rw [dropEndMark?, List.reverse_append, dropMark?_append, Option.map_some, List.reverse_reverse]

theorem eq_of_dropEndMark? {mark s r : List Char} (h : dropEndMark? mark s = some r) : s = r ++ mark := by
  obtain ⟨t, ht, rfl⟩ := Option.map_eq_some_iff.1 h
  rw [← s.reverse_reverse, eq_of_dropMark? ht]
  simp

theorem exists_append_cons_of_not_mem {b r s t : List Char} {c : Char} (hc : c ∉ b)
    (h : b ++ r = s ++ c :: t) : ∃ s', r = s' ++ c :: t := by
  rcases List.append_eq_append_iff.1 h with ⟨u, rfl, hu⟩ | ⟨u, rfl, hu⟩
  · exact ⟨u, hu⟩
  · cases u with
    | nil => exact ⟨[], hu.symm⟩
    | cons d u =>
      obtain ⟨rfl, -⟩ := List.cons.inj hu
      exact absurd (by simp) hc

theorem exists_append_of_not_mem_right {b r s t : List Char} {c : Char} (hmem : c ∈ t) (hc : c ∉ b)
    (h : r ++ b = s ++ t) : ∃ t', r = s ++ t' ∧ t = t' ++ b := by
  rcases List.append_eq_append_iff.1 h with ⟨u, -, rfl⟩ | ⟨u, hu⟩
  · exact absurd (List.mem_append_right _ hmem) hc
  · exact ⟨u, hu⟩

end Mender.Text

namespace Mender.Markup

open Mender.Text

def cdataStart : List Char := ['<', '!', '[', 'C', 'D', 'A', 'T', 'A', '[']

def cdataEnd : List Char := [']', ']', '>']

theorem cdataStart_eq : "<![CDATA[".toList = cdataStart := rfl

theorem cdataEnd_eq : "]]>".toList = cdataEnd := rfl

def cdata (content : List Char) : List Char := cdataStart ++ (content ++ cdataEnd)

theorem trimStart_between (u : Blanks) (content s : List Char) :
    trimStart (u.chars ++ (cdata content ++ s)) = cdataStart ++ (content ++ cdataEnd ++ s) := by
  have starts : trimStart (cdata content ++ s) = cdata content ++ s := trimStart_cons (by decide) _
  rw [trimStart_blank_append u.blank, starts, cdata, List.append_assoc]

theorem trimEnd_append_cdataEnd (s : List Char) (v : Blanks) :
    trimEnd (s ++ cdataEnd ++ v.chars) = s ++ cdataEnd := by
  rw [trimEnd_append_blank v.blank]
  refine trimEnd_of_getLast fun c hc => ?_
  rw [List.getLast?_append] at hc
  cases hc
  decide

theorem cdata?_between (u v : Blanks) (content : List Char) :
    cdata? (u.chars ++ (cdata content ++ v.chars)) = some content := by
  rw [cdata?, cdataStart_eq, cdataEnd_eq, trimStart_between, dropMark?_append, Option.bind_some,
    trimEnd_append_cdataEnd, dropEndMark?_append]

theorem cdata?_cdata (content : List Char) : cdata? (cdata content) = some content := by
  have alone := cdata?_between .empty .empty content
  rwa [Blanks.empty, List.append_nil] at alone

theorem readText_cdata (content : List Char) : readText (cdata content) = content := by
  rw [readText, cdata?_cdata]

/-- A CDATA section stands in the text as it is written, between blanks. -/
theorem exists_of_cdata? {raw content : List Char} (h : cdata? raw = some content) :
    ∃ b b', raw = b ++ (cdata content ++ b') ∧ (∀ c ∈ b, isBlank c = true) ∧
      ∀ c ∈ b', isBlank c = true := by
  obtain ⟨s, hs, hcontent⟩ := Option.bind_eq_some_iff.1 h
  obtain ⟨b, hb, blank⟩ := exists_append_trimStart raw
  obtain ⟨b', hb', blank'⟩ := exists_trimEnd_append s
  refine ⟨b, b', ?_, blank, blank'⟩
  rw [hb, eq_of_dropMark? hs, hb', eq_of_dropEndMark? hcontent, cdata, cdataStart_eq, cdataEnd_eq]
  simp only [List.append_assoc]

theorem cdata?_eq_none {raw : List Char} (h : '<' ∉ raw) : cdata? raw = none := by
  cases hc : cdata? raw with
  | none => rfl
  | some content =>
    obtain ⟨b, b', rfl, -⟩ := exists_of_cdata? hc
    exact absurd (by simp [cdata, cdataStart]) h

theorem skips_cdataStart {m : List Char} (bang : '!' ∉ m) : Skips (openingTag m) cdataStart := by
  refine (skips_of_no_angle (by decide)).cons fun t hp => ?_
  obtain ⟨r, hr⟩ := (List.cons_prefix_cons.1 hp).2
  cases m with
  | nil => simp at hr
  | cons c m =>
    obtain ⟨rfl, -⟩ := List.cons.inj hr
    exact bang List.mem_cons_self

theorem skips_cdata {m s : List Char} (bang : '!' ∉ m) (bracket : ']' ∉ m) (h : ¬ openingTag m <:+: s) :
    Skips (openingTag m) (cdata s) := by
  have inner : Skips (openingTag m) (s ++ [']']) :=
    skips_concat (openingTag_ne_nil m) h (by simp [openingTag, bracket])
  have rest : Skips (openingTag m) [']', '>'] := skips_of_no_angle (by decide)
  have close : cdata s = cdataStart ++ ((s ++ [']']) ++ [']', '>']) := by simp [cdata, cdataEnd]
  rw [close]
  exact (skips_cdataStart bang).append (inner.append rest)

section Breaks

variable {s body tail : List Char}

theorem dropFirstBreak_newline (s : List Char) : dropFirstBreak ('\n' :: s) = s := rfl

theorem dropFirstBreak_of_head (h : ∀ c ∈ s.head?, isBlank c = false) : dropFirstBreak s = s := by
  cases s with
  | nil => rfl
  | cons c s =>
    have hc : isBlank c = false := h c rfl
    have kept : (c :: s).dropWhile (fun c => c == ' ' || c == '\t') = c :: s := by
      refine List.dropWhile_cons_of_neg ?_
      intro blank
      simp only [Bool.or_eq_true, beq_iff_eq] at blank
      rcases blank with rfl | rfl <;> cases hc
    unfold dropFirstBreak
    rw [kept]
    split
    case h_1 heq =>
      obtain ⟨rfl, -⟩ := List.cons.inj heq
      cases hc
    case h_2 heq =>
      obtain ⟨rfl, -⟩ := List.cons.inj heq
      cases hc
    case h_3 => rfl

theorem dropLastBreak_of_getLast (h : ∀ c ∈ s.getLast?, isBlank c = false) : dropLastBreak s = s := by
  simp only [dropLastBreak, trimEnd_of_getLast h, List.drop_length]
  rfl

/-- The break after the last blanks on the line of a text goes, with what follows it. -/
theorem dropLastBreak_append (ends : ∀ c ∈ body.getLast?, isBlank c = false)
    (blank : ∀ c ∈ tail, isBlank c = true) (inline : '\n' ∉ tail) (noReturn : tail.getLast? ≠ some '\r')
    (indent : Blanks) : dropLastBreak (body ++ (tail ++ '\n' :: indent.chars)) = body ++ tail := by
  have trailing : ∀ c ∈ tail ++ '\n' :: indent.chars, isBlank c = true := by
    intro c hc
    rcases List.mem_append.1 hc with hc | hc
    · exact blank c hc
    · rcases List.mem_cons.1 hc with rfl | hc
      · rfl
      · exact indent.blank c hc
  have newline : cut? ['\n'] (tail ++ '\n' :: indent.chars) = some (tail, indent.chars) :=
    cut?_append_cons inline _
  simp only [dropLastBreak, trimEnd_append_blank trailing, trimEnd_of_getLast ends, List.drop_left,
    newline, if_neg noReturn]

end Breaks

section Escape

theorem escape_append (s t : List Char) : escape (s ++ t) = escape s ++ escape t :=
  List.flatMap_append

/-- A character is written as itself or as an entity. -/
theorem escapeChar_cases (c : Char) :
    escapeChar c = [c] ∧ entityName? c = none ∨
      ∃ name, escapeChar c = '&' :: (name ++ [';']) ∧ name.all Char.isAlpha = true ∧
        isBlank c = false := by
  unfold escapeChar entityName?
  split_ifs with amp lt gt quot apos
  · exact .inr ⟨"amp".toList, rfl, rfl, by rw [amp]; decide⟩
  · exact .inr ⟨"lt".toList, rfl, rfl, by rw [lt]; decide⟩
  · exact .inr ⟨"gt".toList, rfl, rfl, by rw [gt]; decide⟩
  · exact .inr ⟨"quot".toList, rfl, rfl, by rw [quot]; decide⟩
  · exact .inr ⟨"apos".toList, rfl, rfl, by rw [apos]; decide⟩
  · exact .inl ⟨rfl, rfl⟩

/-- What has an entity of its own is not written, unless it is what entities start with. -/
theorem not_mem_escape_of_entityName? {d : Char} (hd : entityName? d ≠ none) (amp : d ≠ '&')
    (notAlpha : d.isAlpha = false) (s : List Char) : d ∉ escape s := by
  intro h
  obtain ⟨c, -, hc⟩ := List.mem_flatMap.1 h
  rcases escapeChar_cases c with ⟨he, hnone⟩ | ⟨name, he, alpha, -⟩
  · rw [he, List.mem_singleton] at hc
    exact hd (hc ▸ hnone)
  · rw [he, List.mem_cons, List.mem_append, List.mem_singleton] at hc
    rcases hc with rfl | hc | rfl
    · exact amp rfl
    · rw [List.all_eq_true.1 alpha d hc] at notAlpha
      cases notAlpha
    · exact hd rfl

theorem not_mem_escape (s : List Char) : '<' ∉ escape s :=
  not_mem_escape_of_entityName? (by decide) (by decide) rfl s

theorem quote_not_mem_escape (s : List Char) : '"' ∉ escape s :=
  not_mem_escape_of_entityName? (by decide) (by decide) rfl s

theorem escape_injective : Function.Injective escape := Function.LeftInverse.injective unescape_escape

theorem escape_of_blank {s : List Char} (h : ∀ c ∈ s, isBlank c = true) : escape s = s := by
  induction s with
  | nil => rfl
  | cons c s ih =>
    rw [List.forall_mem_cons] at h
    rcases escapeChar_cases c with ⟨he, -⟩ | ⟨_, -, -, hc⟩
    · rw [escape_cons, he, ih h.2, List.singleton_append]
    · rw [h.1] at hc
      cases hc

theorem head?_escape {s : List Char} (h : ∀ c ∈ s.head?, isBlank c = false) :
    ∀ c ∈ (escape s).head?, isBlank c = false := by
  cases s with
  | nil => exact h
  | cons c s =>
    rw [escape_cons]
    rcases escapeChar_cases c with ⟨he, -⟩ | ⟨name, he, -⟩
    · rw [he]
      exact h
    · rw [he]
      rintro _ ⟨⟩
      decide

theorem getLast?_escape {s : List Char} (h : ∀ c ∈ s.getLast?, isBlank c = false) :
    ∀ c ∈ (escape s).getLast?, isBlank c = false := by
  rcases s.eq_nil_or_concat with rfl | ⟨s, c, rfl⟩
  · exact h
  · have single : escape [c] = escapeChar c := List.flatMap_singleton _ _
    have hc : isBlank c = false := h c (by simp)
    intro d hd
    rw [List.concat_eq_append, escape_append, single] at hd
    rcases escapeChar_cases c with ⟨he, -⟩ | ⟨name, he, -⟩
    · rw [he, List.getLast?_concat] at hd
      cases hd
      exact hc
    · rw [he, ← List.cons_append, ← List.append_assoc, List.getLast?_concat] at hd
      cases hd
      decide

theorem unescape_of_not_mem {s : List Char} (h : '&' ∉ s) : unescape s = s := by
  induction s with
  | nil => rfl
  | cons c s ih =>
    rw [List.mem_cons, not_or] at h
    rw [unescape_cons (Ne.symm h.1), ih h.2]

end Escape

/-- A text that is read as it is written when it is set on lines of its own: its last line is not blank
unless it is its only one, and it does not end in half of a line break. -/
structure Settable (text : List Char) : Prop where
  noReturn : text.getLast? ≠ some '\r'
  noBlankEnd : ∀ before after, text = before ++ '\n' :: after → ∃ c ∈ after, isBlank c = false

theorem Settable.of_getLast? {text : List Char} {c : Char} (last : text.getLast? = some c)
    (solid : isBlank c = false) : Settable text := by
  constructor
  · rw [last]
    rintro ⟨⟩
    cases solid
  · rintro before after rfl
    rw [List.getLast?_append_cons] at last
    rcases List.mem_cons.1 (List.mem_of_getLast? last) with rfl | hc
    · cases solid
    · exact ⟨c, hc, solid⟩

/-- A text, escaped, on lines of its own. -/
def inset (text : List Char) (indent : Blanks) : List Char := '\n' :: (escape text ++ '\n' :: indent.chars)

theorem readText_inset {text : List Char} (h : Settable text) (indent : Blanks) :
    readText (inset text indent) = text := by
  have noAngle : '<' ∉ inset text indent := by
    simp [inset, not_mem_escape, indent.not_mem (c := '<') rfl]
  obtain ⟨tail, htext, blank⟩ := exists_trimEnd_append text
  have hescape : escape text = escape (trimEnd text) ++ tail := by
    conv_lhs => rw [htext]
    rw [escape_append, escape_of_blank blank]
  have inline : '\n' ∉ tail := by
    intro hmem
    obtain ⟨u, v, huv⟩ := List.append_of_mem hmem
    obtain ⟨c, hc, hblank⟩ := h.noBlankEnd (trimEnd text ++ u) v (by rw [List.append_assoc, ← huv, ← htext])
    rw [blank c (by rw [huv]; simp [hc])] at hblank
    cases hblank
  have noReturn : tail.getLast? ≠ some '\r' := by
    intro hlast
    refine h.noReturn ?_
    rw [htext, List.getLast?_append, hlast]
    rfl
  rw [readText, cdata?_eq_none noAngle, inset, dropFirstBreak_newline, hescape, List.append_assoc,
    dropLastBreak_append (getLast?_escape (getLast?_trimEnd text)) blank inline noReturn, ← hescape,
    unescape_escape]

example : readText "\n    if ($a &lt; 2)\n  ".toList = "    if ($a < 2)".toList := by decide +kernel

/-- A text without angles that neither starts nor ends blank is read for its entities only. -/
theorem readText_of_ends {s : List Char} (noAngle : '<' ∉ s) (starts : ∀ c ∈ s.head?, isBlank c = false)
    (ends : ∀ c ∈ s.getLast?, isBlank c = false) : readText s = unescape s := by
  rw [readText, cdata?_eq_none noAngle, dropFirstBreak_of_head starts, dropLastBreak_of_getLast ends]

section Kept

/-- The break before a text goes with blanks only. -/
theorem exists_append_dropFirstBreak (s : List Char) :
    ∃ b, s = b ++ dropFirstBreak s ∧ ∀ c ∈ b, isBlank c = true := by
  have spaces : ∀ c ∈ s.takeWhile (fun c => c == ' ' || c == '\t'), isBlank c = true := by
    intro c hc
    have := List.mem_takeWhile_imp hc
    simp only [Bool.or_eq_true, beq_iff_eq] at this
    rcases this with rfl | rfl <;> rfl
  have hs := List.takeWhile_append_dropWhile (p := fun c => c == ' ' || c == '\t') (l := s)
  unfold dropFirstBreak
  split
  case h_1 r heq =>
    refine ⟨s.takeWhile (fun c => c == ' ' || c == '\t') ++ ['\n'], ?_, ?_⟩
    · rw [List.append_assoc, List.singleton_append, ← heq, hs]
    · exact List.forall_mem_append.2 ⟨spaces, by simp [isBlank]⟩
  case h_2 r heq =>
    refine ⟨s.takeWhile (fun c => c == ' ' || c == '\t') ++ ['\r', '\n'], ?_, ?_⟩
    · rw [List.append_assoc, List.cons_append, List.singleton_append, ← heq, hs]
    · exact List.forall_mem_append.2 ⟨spaces, by simp [isBlank]⟩
  case h_3 => exact ⟨[], rfl, by simp⟩

/-- The break after a text goes with blanks only. -/
theorem exists_dropLastBreak_append (s : List Char) :
    ∃ b, s = dropLastBreak s ++ b ∧ ∀ c ∈ b, isBlank c = true := by
  obtain ⟨tail, hs, blank⟩ := exists_trimEnd_append s
  have htail : s.drop (trimEnd s).length = tail := by
    conv_lhs => arg 2; rw [hs]
    exact List.drop_left
  unfold dropLastBreak
  dsimp only
  rw [htail]
  split
  case h_1 before after hcut =>
    have hcut := eq_of_cut? hcut
    rw [hcut] at hs blank
    split
    case isTrue hlast =>
      obtain ⟨init, rfl⟩ := List.getLast?_eq_some_iff.1 hlast
      refine ⟨'\r' :: '\n' :: after, ?_, fun c hc => blank c ?_⟩
      · conv_lhs => rw [hs]
        simp
      · simp only [List.mem_cons] at hc
        simp
        tauto
    case isFalse =>
      refine ⟨'\n' :: after, ?_, fun c hc => blank c ?_⟩
      · conv_lhs => rw [hs]
        simp
      · simp only [List.mem_cons] at hc
        simp
        tauto
  case h_2 => exact ⟨[], (List.append_nil s).symm, by simp⟩

theorem count_slash_of_blank {b : List Char} (h : ∀ c ∈ b, isBlank c = true) : b.count '/' = 0 := by
  refine List.count_eq_zero_of_not_mem fun hmem => ?_
  have := h '/' hmem
  cases this

theorem count_slash_unescape (s : List Char) : (unescape s).count '/' = s.count '/' := by
  fun_induction unescape s <;> simp_all [List.count_cons]

/-- Every slash is read, and nothing else is read as a slash. -/
theorem count_slash_readText (raw : List Char) : (readText raw).count '/' = raw.count '/' := by
  unfold readText
  split
  case h_1 content hcdata =>
    obtain ⟨b, b', rfl, blank, blank'⟩ := exists_of_cdata? hcdata
    simp [cdata, cdataStart, cdataEnd, count_slash_of_blank blank, count_slash_of_blank blank']
  case h_2 =>
    obtain ⟨b, hb, blank⟩ := exists_append_dropFirstBreak raw
    obtain ⟨b', hb', blank'⟩ := exists_dropLastBreak_append (dropFirstBreak raw)
    conv_rhs => rw [hb, hb']
    rw [count_slash_unescape, List.count_append, List.count_append, count_slash_of_blank blank,
      count_slash_of_blank blank', Nat.zero_add, Nat.add_zero]

/-- A section that the search for its element leaves in the middle of a closing tag is not read as it was
written: the slash of that tag is missing. -/
theorem readText_ne_of_infix {name s t raw post : List Char} (bang : '!' ∉ name)
    (h : closingTag name <:+: s)
    (hcut : cut? (closingTag name) (cdataStart ++ (s ++ t)) = some (raw, post)) : readText raw ≠ s := by
  obtain ⟨before, after, hs⟩ := exists_cut?_of_infix h
  have start : Skips (closingTag name) cdataStart := skips_cdataStart (by simp [bang])
  rw [start, cut?_append_of_some hs, Option.map_some] at hcut
  obtain ⟨rfl, -⟩ := Prod.mk.inj (Option.some.inj hcut)
  intro same
  have slashes := count_slash_readText (cdataStart ++ before)
  rw [same, eq_of_cut? hs] at slashes
  simp [closingTag, cdataStart, List.count_append] at slashes

/-- No entity has a bracket in it. -/
theorem unescape_append_cons (s t : List Char) :
    unescape (s ++ ']' :: t) = unescape s ++ ']' :: unescape t := by
  fun_induction unescape s with
  | case1 s ih | case2 s ih | case3 s ih | case4 s ih | case5 s ih => simp [unescape, ih]
  | case6 c s amp lt gt quot apos ih =>
    have apart (name : List Char) (hname : ']' ∉ name) (none : ∀ r, c = '&' → s = name ++ r → False) :
        ∀ r, c = '&' → s ++ ']' :: t = name ++ r → False := by
      intro r hc hr
      obtain ⟨r', hr'⟩ := prefix_of_prefix_append_cons hname ⟨r, hr.symm⟩
      exact none r' hc hr'.symm
    rw [List.cons_append, unescape, ih, List.cons_append]
    · exact apart ['a', 'm', 'p', ';'] (by decide) amp
    · exact apart ['l', 't', ';'] (by decide) lt
    · exact apart ['g', 't', ';'] (by decide) gt
    · exact apart ['q', 'u', 'o', 't', ';'] (by decide) quot
    · exact apart ['a', 'p', 'o', 's', ';'] (by decide) apos
  | case7 => exact unescape_cons (by decide) t

/-- Of two ends of a section that are not the same, the first one is before the other. -/
theorem cdataEnd_infix_of_append {s t u : List Char} (some : u ≠ [])
    (h : t ++ cdataEnd = s ++ cdataEnd ++ u) : cdataEnd <:+: t := by
  rcases List.append_eq_append_iff.1 h with ⟨v, hv, hend⟩ | ⟨v, rfl, -⟩
  · have last := congrArg List.getLast? hv
    -- what the first one shares with the other does not end like it
    rcases v with _ | ⟨x, _ | ⟨y, _ | ⟨z, v⟩⟩⟩
    · exact ⟨s, [], by rw [hv, List.append_nil, List.append_nil]⟩
    · obtain ⟨rfl, -⟩ := List.cons.inj hend
      simp [cdataEnd] at last
    · obtain ⟨-, hend⟩ := List.cons.inj hend
      obtain ⟨rfl, -⟩ := List.cons.inj hend
      simp [cdataEnd] at last
    · simp [cdataEnd, some] at hend
  · exact ⟨s, v, rfl⟩

/-- The end of a section that is not the end of the content is read as it stands. -/
theorem cdataEnd_infix_readText (s : List Char) {t : List Char} (h : ∃ c ∈ t, isBlank c = false) :
    cdataEnd <:+: readText (s ++ (cdataEnd ++ t)) := by
  obtain ⟨c, hc, solid⟩ := h
  have notBlank {c : Char} (hc : isBlank c = false) {b : List Char} (blank : ∀ c ∈ b, isBlank c = true) :
      c ∉ b := by
    intro hmem
    rw [blank c hmem] at hc
    cases hc
  have bracket {b r s : List Char} (hb : ']' ∉ b) (h : b ++ r = s ++ (cdataEnd ++ t)) :
      ∃ s', r = s' ++ (cdataEnd ++ t) := exists_append_cons_of_not_mem hb h
  unfold readText
  split
  case h_1 content hcdata =>
    obtain ⟨b, b', hraw, blank, blank'⟩ := exists_of_cdata? hcdata
    obtain ⟨s₁, h₁⟩ := bracket (notBlank (by decide) blank) hraw.symm
    rw [cdata, List.append_assoc] at h₁
    obtain ⟨s₂, h₂⟩ := bracket (by decide) h₁
    rw [← List.append_assoc] at h₂
    obtain ⟨t', h₃, rfl⟩ := exists_append_of_not_mem_right hc (notBlank solid blank') h₂
    refine cdataEnd_infix_of_append ?_ h₃
    rintro rfl
    exact notBlank solid blank' hc
  case h_2 =>
    obtain ⟨b, hb, blank⟩ := exists_append_dropFirstBreak (s ++ (cdataEnd ++ t))
    obtain ⟨s₁, h₁⟩ := bracket (notBlank (by decide) blank) hb.symm
    obtain ⟨b', hb', blank'⟩ := exists_dropLastBreak_append (dropFirstBreak (s ++ (cdataEnd ++ t)))
    rw [h₁, ← List.append_assoc] at hb'
    obtain ⟨t', h₂, -⟩ := exists_append_of_not_mem_right hc (notBlank solid blank') hb'.symm
    have close : s₁ ++ cdataEnd ++ t' = s₁ ++ ']' :: (']' :: '>' :: t') := by simp [cdataEnd]
    have kept : unescape (']' :: '>' :: t') = ']' :: '>' :: unescape t' := by
      rw [unescape_cons (by decide), unescape_cons (by decide)]
    rw [h₁, ← List.append_assoc, h₂, close, unescape_append_cons, kept]
    exact ⟨unescape s₁, unescape t', by simp [cdataEnd]⟩

end Kept

end Mender.Markup
