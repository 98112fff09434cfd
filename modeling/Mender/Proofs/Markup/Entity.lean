import Mender.Proofs.Markup.Content

/-! Escaping and reading entities are inverse to each other. The escaped texts are the ones in which
markup finds nothing of its own: no angle, no quote, and no ampersand but where an entity begins. The
five characters can be escaped one after the other if the ampersand comes first, since no entity then
holds a character that is still to be escaped. -/

namespace Mender.Markup

open Mender.Text

section Replacement

/-- A text that is put in the place of a character, wherever that stands. -/
structure Replacement where
  char : Char
  text : List Char

def Replacement.made (r : Replacement) (s : List Char) : List Char :=
  s.flatMap fun c => if c = r.char then r.text else [c]

/-- The text after the replacements, which are made one after the other. -/
def replaced (rs : List Replacement) (s : List Char) : List Char := rs.foldl (fun s r => r.made s) s

/-- What is put in the place of a character if all replacements are made at once. -/
def instead (rs : List Replacement) (c : Char) : List Char :=
  match rs.find? fun r => r.char = c with
  | some r => r.text
  | none => [c]

variable {rs : List Replacement} {r : Replacement} {c : Char}

theorem instead_cons_self (r : Replacement) (rs : List Replacement) :
    instead (r :: rs) r.char = r.text := by
  simp [instead]

theorem instead_cons_of_ne (h : c ≠ r.char) (rs : List Replacement) :
    instead (r :: rs) c = instead rs c := by
  simp [instead, Ne.symm h]

theorem instead_of_forall_ne (h : ∀ r ∈ rs, r.char ≠ c) : instead rs c = [c] := by
  have none : rs.find? (fun r => r.char = c) = none := by simpa using h
  rw [instead, none]

/-- A character stays, or a text of the list is put in its place. -/
theorem instead_cases (rs : List Replacement) (c : Char) :
    (instead rs c = [c] ∧ ∀ r ∈ rs, r.char ≠ c) ∨ ∃ r ∈ rs, instead rs c = r.text := by
  unfold instead
  split
  case h_1 r hr => exact .inr ⟨r, List.mem_of_find?_eq_some hr, rfl⟩
  case h_2 none => exact .inl ⟨rfl, by simpa using none⟩

theorem flatMap_instead_eq_self {s : List Char} (h : ∀ r ∈ rs, r.char ∉ s) :
    s.flatMap (instead rs) = s := by
  have stays : ∀ c ∈ s, instead rs c = [c] := fun c hc =>
    instead_of_forall_ne fun r hr same => h r hr (same ▸ hc)
  rw [List.flatMap_congr stays, List.flatMap_singleton']

/-- Replacements that are made one after the other come to the same as all at once, if none of them
finds its character in what one before it put in. -/
theorem replaced_eq_flatMap (apart : rs.Pairwise fun r later => later.char ∉ r.text) (s : List Char) :
    replaced rs s = s.flatMap (instead rs) := by
  induction rs generalizing s with
  | nil => exact (flatMap_instead_eq_self (by simp)).symm
  | cons r rs ih =>
    rw [List.pairwise_cons] at apart
    have first : replaced (r :: rs) s = replaced rs (r.made s) := rfl
    rw [first, ih apart.2, Replacement.made, List.flatMap_assoc]
    refine List.flatMap_congr fun c _ => ?_
    -- what the first replacement put in is left as it is by the others
    split
    case isTrue h => rw [h, instead_cons_self, flatMap_instead_eq_self apart.1]
    case isFalse h => rw [List.flatMap_singleton, instead_cons_of_ne h]

end Replacement

/-- The five entities and what they stand for. The ampersand, with which they all begin, is first. -/
def entities : List Replacement :=
  [⟨'&', "&amp;".toList⟩, ⟨'<', "&lt;".toList⟩, ⟨'>', "&gt;".toList⟩, ⟨'"', "&quot;".toList⟩,
    ⟨'\x27', "&apos;".toList⟩]

theorem escapeChar_of_forall_ne {c : Char} (h : ∀ e ∈ entities, e.char ≠ c) : escapeChar c = [c] := by
  simp only [entities, List.forall_mem_cons] at h
  obtain ⟨amp, lt, gt, quot, apos, -⟩ := h
  simp [escapeChar, entityName?, amp.symm, lt.symm, gt.symm, quot.symm, apos.symm]

theorem instead_entities (c : Char) : instead entities c = escapeChar c := by
  by_cases h : ∀ e ∈ entities, e.char ≠ c
  · rw [instead_of_forall_ne h, escapeChar_of_forall_ne h]
  · simp only [not_forall, not_not] at h
    obtain ⟨e, he, rfl⟩ := h
    revert e
    decide

theorem replaced_entities (s : List Char) : replaced entities s = escape s := by
  have apart : entities.Pairwise fun r later => later.char ∉ r.text := by decide
  rw [replaced_eq_flatMap apart, funext instead_entities, escape]

/-- A text in which markup finds nothing of its own but entities. -/
structure IsSafe (t : List Char) : Prop where
  less : '<' ∉ t
  greater : '>' ∉ t
  quote : '"' ∉ t
  apostrophe : '\x27' ∉ t
  entity : ∀ after, '&' :: after <:+ t → ∃ e ∈ entities, e.text <+: '&' :: after

section Safe

variable {s t : List Char}

theorem IsSafe.of_suffix (h : IsSafe t) (hs : s <:+ t) : IsSafe s where
  less := fun hc => h.less (hs.subset hc)
  greater := fun hc => h.greater (hs.subset hc)
  quote := fun hc => h.quote (hs.subset hc)
  apostrophe := fun hc => h.apostrophe (hs.subset hc)
  entity after ha := h.entity after (ha.trans hs)

/-- An entity has its ampersand at the start and nowhere else. -/
theorem exists_entity_eq : ∀ e ∈ entities, ∃ rest, e.text = '&' :: rest ∧ '&' ∉ rest := by
  intro e he
  have starts : ∀ e ∈ entities, e.text.head? = some '&' ∧ '&' ∉ e.text.tail := by decide
  obtain ⟨rest, hrest⟩ := List.head?_eq_some_iff.1 (starts e he).1
  exact ⟨rest, hrest, by simpa [hrest] using (starts e he).2⟩

theorem exists_entity_of_suffix_escape (s : List Char) {after : List Char}
    (h : '&' :: after <:+ escape s) : ∃ e ∈ entities, e.text <+: '&' :: after := by
  induction s with
  | nil => exact absurd h.length_le (by simp [escape])
  | cons c s ih =>
    obtain ⟨before, hbefore⟩ := h
    rw [escape_cons, ← instead_entities] at hbefore
    rcases instead_cases entities c with ⟨stays, other⟩ | ⟨e, he, goes⟩
    · rw [stays] at hbefore
      cases before with
      | nil =>
        obtain ⟨rfl, -⟩ := List.cons.inj hbefore
        exact absurd rfl (other ⟨'&', "&amp;".toList⟩ List.mem_cons_self)
      | cons _ before => exact ih ⟨before, (List.cons.inj hbefore).2⟩
    · obtain ⟨rest, hrest, single⟩ := exists_entity_eq e he
      rw [goes] at hbefore
      cases before with
      | nil => exact ⟨e, he, escape s, hbefore.symm⟩
      | cons _ before =>
        -- the only ampersand of the entity is before this one
        rw [hrest] at hbefore
        obtain ⟨before, hs⟩ := exists_append_cons_of_not_mem single (List.cons.inj hbefore).2.symm
        exact ih ⟨before, hs.symm⟩

theorem isSafe_escape (s : List Char) : IsSafe (escape s) where
  less := not_mem_escape s
  greater := not_mem_escape_of_entityName? (by decide) (by decide) rfl s
  quote := quote_not_mem_escape s
  apostrophe := not_mem_escape_of_entityName? (by decide) (by decide) rfl s
  entity _ := exists_entity_of_suffix_escape s

theorem escape_unescape (h : IsSafe t) : escape (unescape t) = t := by
  fun_induction unescape t with
  | case1 s ih | case2 s ih | case3 s ih | case4 s ih | case5 s ih =>
    rw [escape_cons, ih (h.of_suffix (by simp [List.suffix_cons_iff]))]
    rfl
  | case6 c s amp lt gt quot apos ih =>
    have plain : c ≠ '&' := by
      rintro rfl
      obtain ⟨e, he, rest, hrest⟩ := h.entity s (List.suffix_refl _)
      simp only [entities, List.mem_cons, List.not_mem_nil, or_false] at he
      rcases he with rfl | rfl | rfl | rfl | rfl
      · exact amp rest rfl (List.cons.inj hrest).2.symm
      · exact lt rest rfl (List.cons.inj hrest).2.symm
      · exact gt rest rfl (List.cons.inj hrest).2.symm
      · exact quot rest rfl (List.cons.inj hrest).2.symm
      · exact apos rest rfl (List.cons.inj hrest).2.symm
    have other : ∀ e ∈ entities, e.char ≠ c := by
      have less := List.ne_of_not_mem_cons h.less
      have greater := List.ne_of_not_mem_cons h.greater
      have quote := List.ne_of_not_mem_cons h.quote
      have apostrophe := List.ne_of_not_mem_cons h.apostrophe
      simp [entities, plain.symm, less, greater, quote, apostrophe]
    rw [escape_cons, escapeChar_of_forall_ne other, ih (h.of_suffix (List.suffix_cons c s)),
      List.singleton_append]
  | case7 => rfl

/-- The safe texts are those that are written again as they were read. -/
theorem isSafe_iff : IsSafe t ↔ escape (unescape t) = t :=
  ⟨escape_unescape, fun h => h ▸ isSafe_escape _⟩

end Safe

/-- Every text has one safe form, which is read as that text, and every safe text is the form of what is
read of it. The forms are written by five replacements in a row, as they are by one. -/
theorem escape_bijection (s t : List Char) :
    IsSafe (escape s) ∧ unescape (escape s) = s ∧ (IsSafe t ↔ escape (unescape t) = t) ∧
      replaced entities s = escape s :=
  ⟨isSafe_escape s, unescape_escape s, isSafe_iff, replaced_entities s⟩

example : replaced entities "a < \"b\" & c".toList = "a &lt; &quot;b&quot; &amp; c".toList := by
  decide +kernel

end Mender.Markup
