import Mathlib.Data.List.TakeWhile
import Mathlib.Tactic.ByContra
import Mender.Proofs.Text.Lines
import Mender.Tree.Path

/-! Which places the test for containment lets through: none but a place itself and what is below
it. A way that leaves the base starts with a step up, whatever names it goes on with. Of the places that
a text can name, it lets all of these through. -/

namespace Mender.Path

open Mender.Text

theorem common_isPrefix_right (base target : Path) : common base target <+: target := by
  induction base generalizing target with
  | nil => simp [common]
  | cons a p ih =>
    cases target with
    | nil => simp [common]
    | cons b q =>
      by_cases h : a = b
      · subst h
        simpa [common] using ih q
      · simp [common, h]

theorem common_isPrefix_left (base target : Path) : common base target <+: base := by
  induction base generalizing target with
  | nil => simp [common]
  | cons a p ih =>
    cases target with
    | nil => simp [common]
    | cons b q =>
      by_cases h : a = b
      · subst h
        simpa [common] using ih q
      · simp [common, h]

/-- If the whole base is shared, nothing leads out of it. -/
theorem isPrefix_of_length_common {base target : Path}
    (h : base.length ≤ (common base target).length) : base <+: target := by
  have := (common_isPrefix_left base target).eq_of_length_le h
  rw [← this]
  exact common_isPrefix_right base target

/-- A way that starts with a step up is told by its first characters. -/
theorem starts_up (names : Path) :
    ['/'].intercalate (up :: names) = up ∨ (up ++ ['/']) <+: ['/'].intercalate (up :: names) := by
  cases names with
  | nil => exact .inl (by simp [List.intercalate])
  | cons name names =>
    rw [intercalate_cons_cons]
    exact .inr (List.prefix_append _ _)

theorem isPrefix_of_contains {base target : Path} (h : contains base target = true) :
    base <+: target := by
  apply isPrefix_of_length_common
  by_contra hlt
  obtain ⟨n, hn⟩ : ∃ n, base.length - (common base target).length = n + 1 :=
    ⟨base.length - (common base target).length - 1, by omega⟩
  -- part of the base is not shared, so the way starts with a step up, which the check refuses
  have hway : relative base target =
      ['/'].intercalate (up :: (List.replicate n up ++ target.drop (common base target).length)) := by
    rw [relative, hn, List.replicate_succ, List.cons_append]
  simp only [contains, Bool.not_eq_true', Bool.or_eq_false_iff] at h
  obtain ⟨⟨hup, hdown⟩, -⟩ := h
  rw [hway] at hup hdown
  rcases starts_up (List.replicate n up ++ target.drop (common base target).length) with he | hp
  · rw [he] at hup
    simp at hup
  · have hup := List.isPrefixOf_iff_prefix.2 hp
    rw [hup] at hdown
    cases hdown

section Resolved

/-- A name that leads further down. -/
structure IsProper (name : Name) : Prop where
  ne_nil : name ≠ []
  ne_up : name ≠ up
  noSlash : '/' ∉ name

/-- A name that leads one step down. -/
structure IsSegment (name : Name) : Prop extends IsProper name where
  ne_here : name ≠ here

theorem noSlash_of_mem_namesOf {name : Name} {text : List Char} (h : name ∈ namesOf text) : '/' ∉ name :=
  fun hslash => by
    have := forall_not_of_mem_splitWhere h '/' hslash
    cases this

/-- A text leads up to a place above the base, if at all, and then down. -/
theorem exists_resolve_eq (base : Path) (text : List Char) :
    ∃ above down, resolve base text = above ++ down ∧ above <+: base ∧ ∀ name ∈ down, IsSegment name := by
  have down (names : Path) (noSlash : ∀ name ∈ names, '/' ∉ name) (p : Path)
      (hp : ∃ above down, p = above ++ down ∧ above <+: base ∧ ∀ name ∈ down, IsSegment name) :
      ∃ above down, names.foldl step p = above ++ down ∧ above <+: base ∧
        ∀ name ∈ down, IsSegment name := by
    induction names generalizing p with
    | nil => exact hp
    | cons name names ih =>
      rw [List.forall_mem_cons] at noSlash
      refine ih noSlash.2 _ ?_
      obtain ⟨above, down, rfl, habove, proper⟩ := hp
      unfold step
      split_ifs with stays goesUp
      · exact ⟨above, down, rfl, habove, proper⟩
      · rcases down.eq_nil_or_concat with rfl | ⟨down, last, rfl⟩
        · refine ⟨above.dropLast, [], by simp, above.dropLast_prefix.trans habove, by simp⟩
        · refine ⟨above, down, by simp, habove, fun name hname => proper name (by simp [hname])⟩
      · refine ⟨above, down ++ [name], by simp, habove, fun other hother => ?_⟩
        rcases List.mem_append.1 hother with hother | hother
        · exact proper other hother
        · obtain rfl := List.mem_singleton.1 hother
          rw [not_or] at stays
          exact ⟨⟨stays.1, goesUp, noSlash.1⟩, stays.2⟩
  refine down (namesOf text) (fun _ => noSlash_of_mem_namesOf) _ ?_
  split
  · exact ⟨[], [], rfl, List.nil_prefix, by simp⟩
  · exact ⟨base, [], by simp, List.prefix_refl _, by simp⟩

theorem common_append (base rest : Path) : common base (base ++ rest) = base := by
  induction base with
  | nil => cases rest <;> rfl
  | cons name base ih => rw [List.cons_append, common, if_pos rfl, ih]

/-- The first name of a way that leads down. -/
theorem takeWhile_intercalate {name : Name} (noSlash : '/' ∉ name) (names : Path) :
    (['/'].intercalate (name :: names)).takeWhile (· != '/') = name := by
  have inside : ∀ c ∈ name, (c != '/') = true := fun c hc => bne_iff_ne.2 fun heq => noSlash (heq ▸ hc)
  cases names with
  | nil =>
    rw [List.intercalate_singleton]
    exact List.takeWhile_eq_self_iff.2 inside
  | cons next names =>
    rw [intercalate_cons_cons, List.append_assoc, List.takeWhile_append_of_pos inside,
      List.singleton_append, List.takeWhile_cons_of_neg (by simp), List.append_nil]

theorem contains_append {base down : Path} (proper : ∀ name ∈ down, IsProper name) :
    contains base (base ++ down) = true := by
  have way : relative base (base ++ down) = ['/'].intercalate down := by
    rw [relative, common_append, Nat.sub_self, List.drop_left]
    rfl
  rw [contains, way]
  cases down with
  | nil => rfl
  | cons name names =>
    obtain ⟨nonempty, notUp, noSlash⟩ := proper name List.mem_cons_self
    have first := takeWhile_intercalate noSlash names
    -- whatever the test refuses starts with another name than this one
    generalize ['/'].intercalate (name :: names) = way at first
    have notItself : way ≠ up := by
      rintro rfl
      exact notUp first.symm
    have notBelow : (up ++ ['/']).isPrefixOf way = false := by
      rw [← Bool.not_eq_true, List.isPrefixOf_iff_prefix]
      rintro ⟨rest, rfl⟩
      exact notUp first.symm
    have notAbsolute : way.head? ≠ some '/' := by
      intro habsolute
      obtain ⟨rest, rfl⟩ := List.head?_eq_some_iff.1 habsolute
      exact nonempty first.symm
    simp [isAbsolute, notItself, notBelow, notAbsolute]

/-- Of the places that a text can name, the test lets through those at the base or below it. -/
theorem contains_resolve_iff (base : Path) (text : List Char) :
    contains base (resolve base text) = true ↔ base <+: resolve base text := by
  refine ⟨isPrefix_of_contains, fun inside => ?_⟩
  obtain ⟨above, down, hresolve, ⟨between, rfl⟩, proper⟩ := exists_resolve_eq base text
  obtain ⟨rest, hrest⟩ := inside
  have hdown : down = between ++ rest := by
    rw [hresolve, List.append_assoc] at hrest
    exact (List.append_cancel_left hrest).symm
  rw [← hrest]
  exact contains_append fun name hname => (proper name (by simp [hdown, hname])).toIsProper

end Resolved

end Mender.Path
