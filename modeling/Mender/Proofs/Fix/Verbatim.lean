import Mender.Proofs.Fix.Answer

/-! Answers whose texts are CDATA sections. Tags are looked for before sections are, so a text is read as
it was written only if none of the tags is in it that the search could take for its own. -/

namespace Mender.Answer

open Mender.Text Mender.Markup

/-- A fix with its texts written as they are. -/
structure Verbatim where
  fix : Fix
  placed : fix.Placed
  plain : '<' ∉ fix.file.toList ∧ '>' ∉ fix.file.toList ∧ '&' ∉ fix.file.toList
  unclosed : ¬ cdataEnd <:+: fix.before.toList ∧ ¬ cdataEnd <:+: fix.fixed.toList
  lead : Blanks
  afterFile : Blanks
  afterLine : Blanks
  afterBefore : Blanks
  afterFixed : Blanks
  gap : Blanks

/-- A fix whose texts have no tag in them that ends the search for one of them too early, or begins it. -/
structure Legible (f : Fix) : Prop where
  before : ∀ tag ∈ [closingTag "fixes".toList, closingTag "fix".toList, closingTag "original".toList,
    openingTag "fixed".toList], ¬ tag <:+: f.before.toList
  fixed : ∀ tag ∈ [closingTag "fixes".toList, closingTag "fix".toList, closingTag "fixed".toList],
    ¬ tag <:+: f.fixed.toList

namespace Verbatim

variable (v : Verbatim)

def head : List Char :=
  v.lead.chars ++ (written "file".toList v.fix.file.toList ++ (v.afterFile.chars ++
    (written "line".toList v.fix.lineDigits ++ v.afterLine.chars)))

def front : List Char :=
  v.head ++ (written "original".toList (cdata v.fix.before.toList) ++ v.afterBefore.chars)

def content : List Char :=
  v.front ++ (written "fixed".toList (cdata v.fix.fixed.toList) ++ v.afterFixed.chars)

def item : Item := ⟨v.content, v.gap⟩

section Skips

variable {v} {m : List Char} (hm : IsName m)

include hm

theorem skips_head (h : ∀ p ∈ ["file".toList, "line".toList], m ≠ p ∧ m ≠ '/' :: p) :
    Skips (openingTag m) v.head := by
  have file := h "file".toList (by simp)
  have line := h "line".toList (by simp)
  exact (skips_blanks v.lead).append
    ((skips_written hm (by decide) file.1 file.2 (skips_of_no_angle v.plain.1)).append
      ((skips_blanks v.afterFile).append
        ((skips_written hm (by decide) line.1 line.2 (skips_of_no_angle v.fix.lineDigits_no_angle)).append
          (skips_blanks v.afterLine))))

variable (unsigned : '!' ∉ m ∧ ']' ∉ m)

include unsigned

theorem skips_front
    (h : ∀ p ∈ ["file".toList, "line".toList, "original".toList], m ≠ p ∧ m ≠ '/' :: p)
    (none : ¬ openingTag m <:+: v.fix.before.toList) : Skips (openingTag m) v.front := by
  have original := h "original".toList (by simp)
  have head : Skips (openingTag m) v.head := skips_head hm fun p hp => h p (by simp at hp ⊢; tauto)
  exact head.append ((skips_written hm (by decide) original.1 original.2
    (skips_cdata unsigned.1 unsigned.2 none)).append (skips_blanks v.afterBefore))

/-- A tag that is none of the parts' and in none of the texts is not in the block. -/
theorem skips_content
    (h : ∀ p ∈ ["file".toList, "line".toList, "original".toList, "fixed".toList],
      m ≠ p ∧ m ≠ '/' :: p)
    (none : ¬ openingTag m <:+: v.fix.before.toList) (none' : ¬ openingTag m <:+: v.fix.fixed.toList) :
    Skips (openingTag m) v.content := by
  have fixed := h "fixed".toList (by simp)
  have front : Skips (openingTag m) v.front :=
    skips_front hm unsigned (fun p hp => h p (by simp at hp ⊢; tauto)) none
  exact front.append ((skips_written hm (by decide) fixed.1 fixed.2
    (skips_cdata unsigned.1 unsigned.2 none')).append (skips_blanks v.afterFixed))

end Skips

theorem content_eq_head : v.content = v.head ++ (written "original".toList (cdata v.fix.before.toList) ++
    (v.afterBefore.chars ++ (written "fixed".toList (cdata v.fix.fixed.toList) ++ v.afterFixed.chars))) := by
  simp only [content, front, List.append_assoc]

theorem exists_content_eq : ∃ tail, v.content = (v.head ++ (openingTag "original".toList ++ cdataStart)) ++
    (v.fix.before.toList ++ (cdataEnd ++ (closingTag "original".toList ++ tail))) := by
  rw [content_eq_head, written, cdata]
  exact ⟨_, by simp only [List.append_assoc]; rfl⟩

section Fields

theorem field?_file : field? "file" v.content = some v.fix.file.toList := by
  have split : ∃ post, v.content = v.lead.chars ++ (written "file".toList v.fix.file.toList ++ post) :=
    ⟨_, by simp only [content, front, head, List.append_assoc]; rfl⟩
  obtain ⟨post, split⟩ := split
  rw [split, field?_written (by decide) (not_infix_of_skips (skips_blanks v.lead))
    (not_infix_of_skips (skips_of_no_angle v.plain.1)), readText_of_ends v.plain.1
    (head?_of_trim_eq v.placed.trimmed) (getLast?_of_trim_eq v.placed.trimmed),
    unescape_of_not_mem v.plain.2.2]

theorem field?_line : field? "line" v.content = some v.fix.lineDigits := by
  have split : ∃ post, v.content =
      (v.lead.chars ++ (written "file".toList v.fix.file.toList ++ v.afterFile.chars)) ++
        (written "line".toList v.fix.lineDigits ++ post) :=
    ⟨_, by simp only [content, front, head, List.append_assoc]; rfl⟩
  obtain ⟨post, split⟩ := split
  have pre : Skips (openingTag "line".toList)
      (v.lead.chars ++ (written "file".toList v.fix.file.toList ++ v.afterFile.chars)) :=
    (skips_blanks v.lead).append ((skips_written (by decide) (by decide) (by decide) (by decide)
      (skips_of_no_angle v.plain.1)).append (skips_blanks v.afterFile))
  rw [split, field?_written (by decide) (not_infix_of_skips pre)
    (not_infix_of_skips (skips_of_no_angle v.fix.lineDigits_no_angle)), v.fix.readText_lineDigits]

variable {v} (legible : Legible v.fix)

include legible

theorem field?_original : field? "original" v.content = some v.fix.before.toList := by
  have inner : Skips (closingTag "original".toList) (cdata v.fix.before.toList) :=
    skips_cdata (by decide) (by decide) (legible.before (closingTag "original".toList) (by simp))
  rw [content_eq_head, field?_written (by decide)
    (not_infix_of_skips (skips_head (by decide) (by decide))) (not_infix_of_skips inner), readText_cdata]

theorem field?_fixed : field? "fixed" v.content = some v.fix.fixed.toList := by
  have pre : Skips (openingTag "fixed".toList) v.front :=
    skips_front (by decide) (by decide) (by decide) (legible.before _ (by simp))
  have inner : Skips (closingTag "fixed".toList) (cdata v.fix.fixed.toList) :=
    skips_cdata (by decide) (by decide) (legible.fixed (closingTag "fixed".toList) (by simp))
  rw [content, field?_written (by decide) (not_infix_of_skips pre) (not_infix_of_skips inner),
    readText_cdata]

theorem readBlock_content : readBlock v.content = .ok v.fix :=
  readBlock_of_fields v.placed v.field?_file v.field?_line (field?_original legible) (field?_fixed legible)

end Fields

section Legible

/-! What a block is read as if the search for its end stops somewhere in it. -/

variable {v} {block rest raw post : List Char} (split : v.content = block ++ rest)
  (found : element? "fixed".toList block = some (raw, post)) (reads : readText raw = v.fix.fixed.toList)

include split found reads

/-- The new text is looked for past the original one, if that has no element which reads like it. -/
theorem unopened_of_reads (apart : field? "fixed" v.fix.before.toList ≠ some v.fix.fixed.toList) :
    ¬ openingTag "fixed".toList <:+: v.fix.before.toList := by
  intro hopen
  obtain ⟨before, after, hbefore⟩ := exists_cut?_of_infix hopen
  obtain ⟨pre, inner, hpre, hclose⟩ := element?_eq_some_iff.1 (element?_append found rest)
  obtain ⟨tail, texts⟩ := v.exists_content_eq
  have front : Skips (openingTag "fixed".toList)
      (v.head ++ (openingTag "original".toList ++ cdataStart)) :=
    (skips_head (by decide) (by decide)).append
      ((skips_openingTag (by decide) (by decide) (by decide)).append (skips_cdataStart (by decide)))
  rw [← split, texts, front, cut?_append_of_some hbefore, Option.map_some, Option.some.injEq,
    Prod.mk.injEq] at hpre
  obtain ⟨-, rfl⟩ := hpre
  by_cases inside : closingTag "fixed".toList <:+: after
  · -- the original text has an element of its own
    obtain ⟨raw', post', hafter⟩ := exists_cut?_of_infix inside
    rw [cut?_append_of_some hafter, Option.some.injEq, Prod.mk.injEq] at hclose
    obtain ⟨rfl, -⟩ := hclose
    have element := element?_eq_some_iff.2 ⟨before, after, hbefore, hafter⟩
    exact apart (by rw [field?_of_element? element, reads])
  · -- what is read goes on past the end of the section
    have skips : Skips (closingTag "fixed".toList) (after ++ [']']) :=
      skips_concat (openingTag_ne_nil _) inside (by decide)
    have close : Skips (closingTag "fixed".toList) ([']', '>'] ++ closingTag "original".toList) :=
      (skips_of_no_angle (by decide)).append (skips_openingTag (by decide) (by decide) (by decide))
    have rearranged : after ++ (cdataEnd ++ (closingTag "original".toList ++ tail)) =
        (after ++ [']']) ++ (([']', '>'] ++ closingTag "original".toList) ++ tail) := by
      simp [cdataEnd]
    rw [rearranged, skips, close, Option.map_map, Option.map_eq_some_iff] at hclose
    obtain ⟨⟨rest', _⟩, -, hraw⟩ := hclose
    have hraw : raw = after ++ (cdataEnd ++ (closingTag "original".toList ++ rest')) := by
      rw [← (Prod.mk.inj hraw).1]
      simp [cdataEnd]
    have solid : ∃ c ∈ closingTag "original".toList ++ rest', isBlank c = false :=
      ⟨'<', List.mem_cons_self, by decide⟩
    have closed := cdataEnd_infix_readText after solid
    rw [← hraw, reads] at closed
    exact v.unclosed.2 closed

/-- If it is found in its own element, all of that element is in the block. -/
theorem exists_of_reads (unopened : ¬ openingTag "fixed".toList <:+: v.fix.before.toList) :
    ¬ closingTag "fixed".toList <:+: v.fix.fixed.toList ∧
      ∃ post', block = v.front ++ (written "fixed".toList (cdata v.fix.fixed.toList) ++ post') := by
  obtain ⟨pre, inner, hpre, hclose⟩ := element?_eq_some_iff.1 found
  have front : Skips (openingTag "fixed".toList) v.front :=
    skips_front (by decide) (by decide) (by decide) unopened
  have whole := cut?_append_of_some hpre rest
  rw [← split, content, written, List.append_assoc, cut?_openingTag (by decide) (not_infix_of_skips front),
    Option.some.injEq, Prod.mk.injEq] at whole
  obtain ⟨rfl, hinner⟩ := whole
  have closes := cut?_append_of_some hclose rest
  rw [← hinner] at closes
  have unclosed : ¬ closingTag "fixed".toList <:+: v.fix.fixed.toList := by
    intro h
    rw [cdata, List.append_assoc, List.append_assoc, List.append_assoc] at closes
    exact readText_ne_of_infix (by decide) h closes reads
  have solid : Skips (closingTag "fixed".toList) (cdata v.fix.fixed.toList) :=
    skips_cdata (by decide) (by decide) unclosed
  rw [List.append_assoc, closingTag_eq, cut?_openingTag (by decide) (not_infix_of_skips solid),
    Option.some.injEq, Prod.mk.injEq] at closes
  obtain ⟨rfl, -⟩ := closes
  refine ⟨unclosed, post, ?_⟩
  rw [eq_of_cut? hpre, eq_of_cut? hclose, written]
  simp only [List.append_assoc]

end Legible

/-- The original text is found in its own element only if no closing tag of that is in it. -/
theorem unclosed_of_reads {v : Verbatim} {block post : List Char} (split : block = v.front ++ post)
    (reads : (field? "original" block).getD [] = v.fix.before.toList) :
    ¬ closingTag "original".toList <:+: v.fix.before.toList := by
  intro h
  obtain ⟨tail, hblock⟩ : ∃ tail, block =
      v.head ++ (openingTag "original".toList ++ (cdataStart ++ (v.fix.before.toList ++ tail))) := by
    rw [split, front, written, cdata]
    exact ⟨_, by simp only [List.append_assoc]; rfl⟩
  have later : closingTag "original".toList <:+: cdataStart ++ (v.fix.before.toList ++ tail) :=
    (h.trans (List.infix_append [] v.fix.before.toList tail)).trans (List.suffix_append _ _).isInfix
  obtain ⟨raw, post', hraw⟩ := exists_cut?_of_infix later
  have head : Skips (openingTag "original".toList) v.head := skips_head (by decide) (by decide)
  have opened := cut?_openingTag (by decide) (not_infix_of_skips head)
    (cdataStart ++ (v.fix.before.toList ++ tail))
  rw [hblock, field?_of_element? (element?_eq_some_iff.2 ⟨_, _, opened, hraw⟩)] at reads
  exact readText_ne_of_infix (by decide) h hraw reads

/-- If the search for the end of a block stops somewhere in it, what it is cut to is read as the fix only if
the fix is legible. -/
theorem legible_of_readBlock {v : Verbatim} {block rest : List Char} (split : v.content = block ++ rest)
    (unfixed : ¬ closingTag "fix".toList <:+: block) (unfixes : ¬ closingTag "fixes".toList <:+: block)
    (hread : readBlock block = .ok v.fix)
    (apart : field? "fixed" v.fix.before.toList ≠ some v.fix.fixed.toList) : Legible v.fix := by
  obtain ⟨original, hfixed⟩ := fields_of_readBlock hread
  obtain ⟨⟨raw, post⟩, found, reads⟩ := Option.map_eq_some_iff.1 hfixed
  have unopened := unopened_of_reads split found reads apart
  obtain ⟨unclosed, post', hblock⟩ := exists_of_reads split found reads unopened
  have unclosed' := unclosed_of_reads hblock original
  have before : v.fix.before.toList <:+: block := by
    rw [hblock, front, written, cdata]
    exact ⟨v.head ++ (openingTag "original".toList ++ cdataStart), _, by
      simp only [List.append_assoc]
      rfl⟩
  have fixed : v.fix.fixed.toList <:+: block := by
    rw [hblock, written, cdata]
    exact ⟨v.front ++ (openingTag "fixed".toList ++ cdataStart), _, by
      simp only [List.append_assoc]
      rfl⟩
  constructor
  · intro tag htag h
    simp only [List.mem_cons, List.not_mem_nil, or_false] at htag
    rcases htag with rfl | rfl | rfl | rfl
    · exact unfixes (h.trans before)
    · exact unfixed (h.trans before)
    · exact unclosed' h
    · exact unopened h
  · intro tag htag h
    simp only [List.mem_cons, List.not_mem_nil, or_false] at htag
    rcases htag with rfl | rfl | rfl
    · exact unfixes (h.trans fixed)
    · exact unfixed (h.trans fixed)
    · exact unclosed h

end Verbatim

/-- The fixes are read, no block is skipped, and no original text has an element in it that could be
taken for the new text. -/
structure ReadInPlace (answer : List Char) (fs : List Fix) : Prop where
  fixes : fixes answer = fs
  whole : skipped answer = []
  apart : ∀ f ∈ fs, field? "fixed" f.before.toList ≠ some f.fixed.toList

section List

variable {vs : List Verbatim}

theorem writeAll_cons (v : Verbatim) (vs : List Verbatim) (t : List Char) :
    Item.writeAll "fix".toList ((v :: vs).map Verbatim.item) ++ t =
      (written "fix".toList v.content ++ v.gap.chars) ++
        (Item.writeAll "fix".toList (vs.map Verbatim.item) ++ t) := by
  rw [Item.writeAll, Item.writeAll, List.map_cons, List.flatMap_cons, List.append_assoc]
  rfl

/-- No tag that closes a block or all of them is in a block that is legible. -/
theorem skips_of_legible {v : Verbatim} (legible : Legible v.fix) :
    ∀ name ∈ ["fixes".toList, "fix".toList], Skips (closingTag name) v.content := by
  intro name hname
  have before := legible.before (closingTag name) (by simp at hname ⊢; tauto)
  have fixed := legible.fixed (closingTag name) (by simp at hname ⊢; tauto)
  simp only [List.mem_cons, List.not_mem_nil, or_false] at hname
  rcases hname with rfl | rfl
  · exact v.skips_content (by decide) (by decide) (by decide) before fixed
  · exact v.skips_content (by decide) (by decide) (by decide) before fixed

/-- What is found of the first block is a part of it that holds none of the closing tags. -/
theorem exists_of_element?_fix {v : Verbatim} {t scope rest block post : List Char}
    (hcut : cut? (closingTag "fixes".toList) (written "fix".toList v.content ++ t) = some (scope, rest))
    (found : element? "fix".toList scope = some (block, post)) :
    ∃ rest', v.content = block ++ rest' ∧ ¬ closingTag "fix".toList <:+: block ∧
      ¬ closingTag "fixes".toList <:+: block := by
  have whole := element?_append found (closingTag "fixes".toList ++ rest)
  rw [← List.append_assoc, ← eq_of_cut? hcut] at whole
  obtain ⟨pre, inner, hopen, hclose⟩ := element?_eq_some_iff.1 whole
  rw [written, List.append_assoc, cut?_self_append, Option.some.injEq, Prod.mk.injEq] at hopen
  obtain ⟨rfl, rfl⟩ := hopen
  rw [List.append_assoc] at hclose
  obtain ⟨rest', hrest⟩ := isPrefix_of_cut? (by decide) hclose
  obtain ⟨pre, hscope, unclosed⟩ := exists_of_element? found
  have part : block <:+: scope := by
    rw [hscope, written]
    exact ⟨pre ++ openingTag "fix".toList, _, by simp only [List.append_assoc]; rfl⟩
  exact ⟨rest', hrest.symm, unclosed, fun h =>
    not_infix_of_cut? (openingTag_ne_nil _) hcut (h.trans part)⟩

/-- The fixes are read as they were written only if all of them are legible. The first one that is not
spoils its own block, and those before it have been read. -/
theorem legible_of_elements {t scope rest : List Char}
    (hcut : cut? (closingTag "fixes".toList) (Item.writeAll "fix".toList (vs.map Verbatim.item) ++ t) =
      some (scope, rest))
    (reads : (elements "fix".toList scope).map readBlock = vs.map fun v => .ok v.fix)
    (apart : ∀ v ∈ vs, field? "fixed" v.fix.before.toList ≠ some v.fix.fixed.toList) :
    ∀ v ∈ vs, Legible v.fix := by
  induction vs generalizing scope rest with
  | nil => exact fun v hv => absurd hv List.not_mem_nil
  | cons v vs ih =>
    rw [List.forall_mem_cons] at apart
    rw [writeAll_cons, List.append_assoc] at hcut
    cases found : element? "fix".toList scope with
    | none =>
      rw [elements_of_none found] at reads
      cases reads
    | some p =>
      obtain ⟨block, post⟩ := p
      obtain ⟨rest', split, unfixed, unfixes⟩ := exists_of_element?_fix hcut found
      have first : readBlock block = .ok v.fix := by
        rw [elements_of_some found] at reads
        exact (List.cons.inj reads).1
      have legible := Verbatim.legible_of_readBlock split unfixed unfixes first apart.1
      -- the search passes over this block, and what is left of it holds the others
      have element : Skips (closingTag "fixes".toList) (written "fix".toList v.content) :=
        skips_written (by decide) (by decide) (by decide) (by decide) (skips_of_legible legible _ (by simp))
      have gap : Skips (closingTag "fixes".toList) v.gap.chars := skips_blanks v.gap
      rw [element, gap, Option.map_map, Option.map_eq_some_iff] at hcut
      obtain ⟨⟨scope', rest''⟩, hcut', hscope⟩ := hcut
      obtain ⟨hscope, -⟩ := Prod.mk.inj hscope
      have others : elements "fix".toList scope = v.content :: elements "fix".toList scope' := by
        rw [← hscope]
        have closes := skips_of_legible legible "fix".toList (by simp)
        exact elements_written_append (by decide) (not_infix_of_skips closes) v.gap scope'
      rw [others] at reads
      exact List.forall_mem_cons.2 ⟨legible, ih hcut' (List.cons.inj reads).2 apart.2⟩

end List

/-- The fixes are read from where they were written exactly if all of them are legible. -/
theorem readInPlace_iff (fr : Frame) (vs : List Verbatim) :
    ReadInPlace (fr.text (vs.map Verbatim.item)) (vs.map Verbatim.fix) ↔ ∀ v ∈ vs, Legible v.fix := by
  constructor
  · rintro ⟨hfixes, hwhole, apart⟩
    have hblocks := blocks_eq_iff.2 ⟨hfixes, hwhole⟩
    obtain ⟨scope, rest, hcut, hscope⟩ := fr.exists_blocks_text (vs.map Verbatim.item)
    rw [hscope, List.map_map] at hblocks
    exact legible_of_elements hcut hblocks fun v hv => apart v.fix (List.mem_map_of_mem hv)
  · intro legible
    have hblocks : blocks (fr.text (vs.map Verbatim.item)) = (vs.map Verbatim.fix).map .ok := by
      rw [fr.blocks_text, List.map_map, List.map_map]
      · exact List.map_congr_left fun v hv => v.readBlock_content (legible v hv)
      · intro i hi
        obtain ⟨v, hv, rfl⟩ := List.mem_map.1 hi
        exact skips_of_legible (legible v hv) _ (by simp)
      · intro i hi
        obtain ⟨v, hv, rfl⟩ := List.mem_map.1 hi
        exact skips_of_legible (legible v hv) _ (by simp)
    obtain ⟨hfixes, hwhole⟩ := blocks_eq_iff.1 hblocks
    refine ⟨hfixes, hwhole, fun f hf => ?_⟩
    obtain ⟨v, hv, rfl⟩ := List.mem_map.1 hf
    have none := element?_eq_none ((legible v hv).before (openingTag "fixed".toList) (by simp))
    rw [field?, none]
    simp

namespace TagInText

/-! A new text that speaks of the tag which closes it. It is read up to there, together with the start of
its section. -/

def fix : Fix := ⟨"a.php", 1, "x", "echo \"</fixed>\";"⟩

def newline : Blanks := ⟨['\n'], by simp [isBlank]⟩

def verbatim : Verbatim where
  fix := fix
  placed := ⟨by decide, by decide, 0, by decide +kernel⟩
  plain := by decide
  unclosed := by decide
  lead := newline
  afterFile := newline
  afterLine := newline
  afterBefore := newline
  afterFixed := newline
  gap := newline

def frame : Frame := ⟨[], newline, [], by decide⟩

theorem readBlock_content :
    (readBlock verbatim.content).toOption = some ⟨"a.php", 1, "x", "<![CDATA[echo \""⟩ := by
  decide +kernel

theorem fixes_text : fixes (frame.text [verbatim.item]) = [⟨"a.php", 1, "x", "<![CDATA[echo \""⟩] := by
  have closes : Skips (closingTag "fixes".toList) verbatim.content :=
    verbatim.skips_content (by decide) (by decide) (by decide) (by decide) (by decide)
  have closes' : Skips (closingTag "fix".toList) verbatim.content :=
    verbatim.skips_content (by decide) (by decide) (by decide) (by decide) (by decide)
  rw [fixes, frame.blocks_text (List.forall_mem_singleton.2 closes) (List.forall_mem_singleton.2 closes')]
  exact congrArg Option.toList readBlock_content

/-- Texts in CDATA sections need not be read as they are written. -/
theorem not_copied : ¬ ∀ (fr : Frame) (vs : List Verbatim),
    fixes (fr.text (vs.map Verbatim.item)) = vs.map Verbatim.fix := by
  intro copied
  have same := fixes_text.symm.trans (copied frame [verbatim])
  exact absurd (congrArg (List.map Fix.fixed) same) (by decide)

end TagInText

end Mender.Answer
