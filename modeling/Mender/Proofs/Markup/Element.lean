import Mender.Markup.Element
import Mender.Proofs.Text.Marks
import Mender.Proofs.Text.Phrase

/-! Elements as they are written, and where the search for an element finds them. It passes over
everything in which none of its tags begins, other elements included. -/

namespace Mender.Markup

open Mender.Text

structure IsName (name : List Char) : Prop where
  less : '<' ∉ name
  greater : '>' ∉ name

instance (name : List Char) : Decidable (IsName name) :=
  decidable_of_iff ('<' ∉ name ∧ '>' ∉ name) ⟨fun h => ⟨h.1, h.2⟩, fun h => ⟨h.1, h.2⟩⟩

theorem IsName.slash {name : List Char} (h : IsName name) : IsName ('/' :: name) where
  less := by simpa using h.less
  greater := by simpa using h.greater

def written (name content : List Char) : List Char := openingTag name ++ (content ++ closingTag name)

/-- The tag that closes an element opens one whose name has a slash before it. -/
theorem closingTag_eq (name : List Char) : closingTag name = openingTag ('/' :: name) := rfl

theorem openingTag_ne_nil (name : List Char) : openingTag name ≠ [] := List.cons_ne_nil _ _

section Skips

variable {m name content : List Char}

theorem not_infix_of_skips {s : List Char} (h : Skips (openingTag m) s) : ¬ openingTag m <:+: s := by
  refine cut?_eq_none_iff.1 ?_
  rw [← List.append_nil s, h]
  rfl

theorem skips_of_no_angle {s : List Char} (h : '<' ∉ s) : Skips (openingTag m) s := skips_of_not_mem h

theorem skips_blanks (b : Blanks) : Skips (openingTag m) b.chars := skips_of_no_angle (b.not_mem rfl)

theorem eq_of_append_greater {r t : List Char} (hm : '>' ∉ m) (hname : '>' ∉ name)
    (h : m ++ '>' :: r = name ++ '>' :: t) : m = name := by
  induction m generalizing name with
  | nil =>
    cases name with
    | nil => rfl
    | cons c name =>
      obtain ⟨rfl, -⟩ := List.cons.inj h
      exact absurd List.mem_cons_self hname
  | cons a m ih =>
    rw [List.mem_cons, not_or] at hm
    cases name with
    | nil => exact absurd (List.cons.inj h).1.symm hm.1
    | cons c name =>
      rw [List.mem_cons, not_or] at hname
      obtain ⟨rfl, rest⟩ := List.cons.inj h
      rw [ih hm.2 hname.2 rest]

/-- Tags with different names are different, and no tag begins inside of another. -/
theorem skips_openingTag (hm : IsName m) (hname : IsName name) (h : m ≠ name) :
    Skips (openingTag m) (openingTag name) := by
  have inner : '<' ∉ name ++ ['>'] := by simp [hname.less]
  refine (skips_of_no_angle inner).cons fun t hp => ?_
  obtain ⟨r, hr⟩ := (List.cons_prefix_cons.1 hp).2
  have hr : m ++ '>' :: r = name ++ '>' :: t := by simpa using hr
  exact h (eq_of_append_greater hm.greater hname.greater hr)

/-- An element is passed over in the search for a tag that is neither of its own and not in it. -/
theorem skips_written (hm : IsName m) (hname : IsName name) (h : m ≠ name) (h' : m ≠ '/' :: name)
    (hc : Skips (openingTag m) content) : Skips (openingTag m) (written name content) :=
  (skips_openingTag hm hname h).append (hc.append (skips_openingTag hm hname.slash h'))

/-- A tag cannot begin in one text and end in the next, if that begins with an angle. -/
theorem not_infix_append {s t : List Char} (hm : IsName m) (hs : ¬ openingTag m <:+: s) (ht : ¬ openingTag m <:+: t)
    (starts : ∀ c ∈ t.head?, c = '<') : ¬ openingTag m <:+: s ++ t := by
  cases t with
  | nil => rwa [List.append_nil]
  | cons c t =>
    obtain rfl := starts c rfl
    have tail : '<' ∉ (openingTag m).tail := by simp [openingTag, hm.less]
    rw [← cut?_eq_none_iff, cut?_append_of_none hs tail, cut?_eq_none_iff.2 ht]
    rfl

theorem not_infix_append_of_skips {s t : List Char} (hs : Skips (openingTag m) s) (ht : ¬ openingTag m <:+: t) :
    ¬ openingTag m <:+: s ++ t := by
  rw [← cut?_eq_none_iff, hs, cut?_eq_none_iff.2 ht]
  rfl

/-- An element of another name adds no tag to what it holds and what follows it. -/
theorem not_infix_written_append {t : List Char} (hm : IsName m) (hname : IsName name) (h : m ≠ name) (h' : m ≠ '/' :: name)
    (hc : ¬ openingTag m <:+: content) (ht : ¬ openingTag m <:+: t) :
    ¬ openingTag m <:+: written name content ++ t := by
  have closed : ¬ openingTag m <:+: closingTag name ++ t :=
    not_infix_append_of_skips (skips_openingTag hm hname.slash h') ht
  rw [written, List.append_assoc, List.append_assoc]
  exact not_infix_append_of_skips (skips_openingTag hm hname h)
    (not_infix_append hm hc closed fun c hc => (Option.some.inj hc).symm)

end Skips

section Element

variable {name pre content post s : List Char}

theorem element?_eq_some_iff : element? name s = some (content, post) ↔
    ∃ pre rest, cut? (openingTag name) s = some (pre, rest) ∧
      cut? (closingTag name) rest = some (content, post) := by
  rw [element?, Option.bind_eq_some_iff]
  exact Prod.exists

/-- The first tag is found where nothing before it holds one. -/
theorem cut?_openingTag (hname : IsName name) (h : ¬ openingTag name <:+: pre) (t : List Char) :
    cut? (openingTag name) (pre ++ (openingTag name ++ t)) = some (pre, t) := by
  have tail : '<' ∉ (openingTag name).tail := by simp [openingTag, hname.less]
  have found := cut?_self_append (openingTag name) t
  have begins : openingTag name ++ t = '<' :: (name ++ '>' :: t) := by simp [openingTag]
  rw [begins] at found ⊢
  rw [cut?_append_of_none h tail, found, Option.map_some, List.append_nil]

/-- The first tag is found no later than a tag that stands in the text. -/
theorem isPrefix_of_cut? (hname : IsName name) {t : List Char}
    (h : cut? (openingTag name) (s ++ (openingTag name ++ t)) = some (pre, post)) : pre <+: s := by
  by_cases inside : openingTag name <:+: s
  · obtain ⟨before, after, hs⟩ := exists_cut?_of_infix inside
    rw [cut?_append_of_some hs] at h
    obtain ⟨rfl, -⟩ := Prod.mk.inj (Option.some.inj h)
    exact ⟨openingTag name ++ after, by rw [eq_of_cut? hs, List.append_assoc]⟩
  · rw [cut?_openingTag hname inside] at h
    obtain ⟨rfl, -⟩ := Prod.mk.inj (Option.some.inj h)
    exact List.prefix_refl _

theorem element?_written (hname : IsName name) (hpre : ¬ openingTag name <:+: pre)
    (hc : ¬ closingTag name <:+: content) (post : List Char) :
    element? name (pre ++ (written name content ++ post)) = some (content, post) := by
  refine element?_eq_some_iff.2 ⟨pre, content ++ (closingTag name ++ post), ?_, ?_⟩
  · rw [written, List.append_assoc, List.append_assoc, cut?_openingTag hname hpre]
  · exact cut?_openingTag hname.slash hc post

theorem element?_append_of_skips (h : Skips (openingTag name) pre) (s : List Char) :
    element? name (pre ++ s) = element? name s := by
  rw [element?, h, element?]
  cases cut? (openingTag name) s <;> rfl

theorem element?_eq_none (h : ¬ openingTag name <:+: s) : element? name s = none := by
  rw [element?, cut?_eq_none_iff.2 h, Option.bind_none]

theorem element?_eq_none_of_unclosed (h : ¬ closingTag name <:+: s) : element? name s = none := by
  rw [element?, Option.bind_eq_none_iff]
  rintro ⟨pre, rest⟩ hopen
  refine cut?_eq_none_iff.2 fun hclose => h (hclose.trans ?_)
  rw [eq_of_cut? hopen]
  exact (List.suffix_append _ rest).isInfix

/-- What is found of an element stands in the text as it is written, with no closing tag inside. -/
theorem exists_of_element? (h : element? name s = some (content, post)) :
    ∃ pre, s = pre ++ (written name content ++ post) ∧ ¬ closingTag name <:+: content := by
  obtain ⟨pre, rest, hopen, hclose⟩ := element?_eq_some_iff.1 h
  refine ⟨pre, ?_, not_infix_of_cut? (openingTag_ne_nil _) hclose⟩
  rw [eq_of_cut? hopen, eq_of_cut? hclose, written]
  simp only [List.append_assoc]

theorem element?_append (h : element? name s = some (content, post)) (t : List Char) :
    element? name (s ++ t) = some (content, post ++ t) := by
  obtain ⟨pre, rest, hopen, hclose⟩ := element?_eq_some_iff.1 h
  exact element?_eq_some_iff.2 ⟨pre, rest ++ t, cut?_append_of_some hopen t, cut?_append_of_some hclose t⟩

theorem elements_of_some (h : element? name s = some (content, post)) :
    elements name s = content :: elements name post := by
  rw [elements]
  split
  case h_1 content' post' h' =>
    rw [h] at h'
    cases h'
    rfl
  case h_2 h' =>
    rw [h] at h'
    cases h'

theorem elements_of_none (h : element? name s = none) : elements name s = [] := by
  rw [elements]
  split
  case h_1 h' =>
    rw [h] at h'
    cases h'
  case h_2 => rfl

theorem elements_append_of_skips (h : Skips (openingTag name) pre) (s : List Char) :
    elements name (pre ++ s) = elements name s := by
  have same := element?_append_of_skips h s
  cases hs : element? name s with
  | none => rw [elements_of_none hs, elements_of_none (same.trans hs)]
  | some p => rw [elements_of_some hs, elements_of_some (same.trans hs)]

/-- No element begins in what comes before a tag with another name. -/
theorem elements_append_openingTag {m : List Char} (hm : IsName m) (hname : IsName name) (h : m ≠ name)
    (none : ¬ openingTag m <:+: pre) (s : List Char) :
    elements m (pre ++ (openingTag name ++ s)) = elements m s := by
  have tail : '<' ∉ (openingTag m).tail := by simp [openingTag, hm.less]
  have tag : Skips (openingTag m) (openingTag name) := skips_openingTag hm hname h
  rw [← List.append_assoc]
  refine elements_append_of_skips (fun t => ?_) s
  have passed := cut?_append_of_none none tail (name ++ '>' :: t)
  have begins : openingTag name ++ t = '<' :: (name ++ '>' :: t) := by simp [openingTag]
  rw [← begins, tag, Option.map_map] at passed
  rw [List.append_assoc, passed]
  simp [Function.comp_def]

/-- In a longer text there are the same elements, and then perhaps more. -/
theorem elements_isPrefix {t : List Char} (h : s <+: t) : elements name s <+: elements name t := by
  obtain ⟨rest, rfl⟩ := h
  induction s using elements.induct name with
  | case1 s content post found ih =>
    rw [elements_of_some found, elements_of_some (element?_append found rest), List.cons_prefix_cons]
    exact ⟨rfl, ih⟩
  | case2 s none =>
    rw [elements_of_none none]
    exact List.nil_prefix

/-- A text that ends no tag completes no element. -/
theorem elements_append_of_no_greater {t : List Char} (h : '>' ∉ t) (s : List Char) :
    elements name (s ++ t) = elements name s := by
  have opening (s : List Char) := cut?_append_of_not_mem ('<' :: name) h s
  have closing (s : List Char) := cut?_append_of_not_mem ('<' :: '/' :: name) h s
  induction s using elements.induct name with
  | case1 s content post found ih =>
    rw [elements_of_some found, elements_of_some (element?_append found t), ih]
  | case2 s none =>
    have longer : element? name (s ++ t) = (element? name s).map fun p => (p.1, p.2 ++ t) := by
      unfold element? openingTag closingTag
      rw [opening]
      cases cut? ('<' :: name ++ ['>']) s with
      | none => rfl
      | some p => exact closing p.2
    rw [none, Option.map_none] at longer
    rw [elements_of_none none, elements_of_none longer]

structure Item where
  content : List Char
  gap : Blanks

def Item.writeAll (name : List Char) (items : List Item) : List Char :=
  items.flatMap fun i => written name i.content ++ i.gap.chars

/-- An element that stands first is found first, and the others are looked for behind it. -/
theorem elements_written_append (hname : IsName name) (hc : ¬ closingTag name <:+: content)
    (gap : Blanks) (s : List Char) :
    elements name (written name content ++ (gap.chars ++ s)) = content :: elements name s := by
  have nothing : ¬ openingTag name <:+: [] := by simp [openingTag]
  have first := element?_written hname nothing hc (gap.chars ++ s)
  rw [List.nil_append] at first
  rw [elements_of_some first, elements_append_of_skips (skips_blanks gap)]

/-- The elements found are the ones that were written, if none has its closing tag inside. -/
theorem elements_writeAll (hname : IsName name) {items : List Item}
    (h : ∀ i ∈ items, ¬ closingTag name <:+: i.content) :
    elements name (Item.writeAll name items) = items.map Item.content := by
  induction items with
  | nil => exact elements_of_none (element?_eq_none (by simp [Item.writeAll, openingTag]))
  | cons i items ih =>
    rw [List.forall_mem_cons] at h
    have rest := elements_written_append hname h.1 i.gap (Item.writeAll name items)
    rw [← List.append_assoc] at rest
    rw [Item.writeAll, List.flatMap_cons, List.map_cons, ← ih h.2]
    exact rest

end Element

end Mender.Markup
