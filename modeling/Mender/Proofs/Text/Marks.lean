import Mathlib.Data.List.Infix
import Mender.Text.Split

/-! Where a mark is first found in a text that was put together from texts. A text in which no mark
begins is passed over, whatever follows it. -/

namespace Mender.Text

variable {mark s before after : List Char} {c : Char}

theorem dropMark?_append (mark s : List Char) : dropMark? mark (mark ++ s) = some s := by
  rw [dropMark?, if_pos (by simp), List.drop_left]

theorem eq_of_dropMark? {r : List Char} (h : dropMark? mark s = some r) : s = mark ++ r := by
  unfold dropMark? at h
  split at h
  case isTrue hp =>
    obtain ⟨t, rfl⟩ := List.isPrefixOf_iff_prefix.1 hp
    rw [← Option.some.inj h, List.drop_left]
  case isFalse => cases h

theorem cut?_cons_pos (h : mark <+: c :: s) :
    cut? mark (c :: s) = some ([], (c :: s).drop mark.length) :=
  if_pos (List.isPrefixOf_iff_prefix.2 h)

theorem cut?_cons_neg (h : ¬ mark <+: c :: s) :
    cut? mark (c :: s) = (cut? mark s).map fun p => (c :: p.1, p.2) :=
  if_neg fun h' => h (List.isPrefixOf_iff_prefix.1 h')

theorem cut?_self_append (mark s : List Char) : cut? mark (mark ++ s) = some ([], s) := by
  cases mark with
  | nil => cases s <;> simp [cut?]
  | cons m mark =>
    rw [List.cons_append, cut?_cons_pos ⟨s, rfl⟩]
    simp

theorem cut?_eq_none_iff : cut? mark s = none ↔ ¬ mark <:+: s := by
  induction s with
  | nil => simp [cut?]
  | cons c s ih =>
    rw [List.infix_cons_iff]
    by_cases h : mark <+: c :: s
    · simp [cut?_cons_pos h, h]
    · simp [cut?_cons_neg h, h, ih]

theorem exists_cut?_of_infix (h : mark <:+: s) : ∃ before after, cut? mark s = some (before, after) := by
  cases hs : cut? mark s with
  | none => exact absurd h (cut?_eq_none_iff.1 hs)
  | some p => exact ⟨p.1, p.2, rfl⟩

theorem not_infix_of_cut? (hm : mark ≠ []) (h : cut? mark s = some (before, after)) :
    ¬ mark <:+: before := by
  induction s generalizing before with
  | nil => simp [cut?, hm] at h
  | cons c s ih =>
    by_cases hp : mark <+: c :: s
    · rw [cut?_cons_pos hp] at h
      cases h
      simpa using hm
    · rw [cut?_cons_neg hp, Option.map_eq_some_iff] at h
      obtain ⟨⟨b, a⟩, hs, hba⟩ := h
      cases hba
      rw [List.infix_cons_iff]
      rintro (here | later)
      · have hpre : b <+: s := ⟨mark ++ a, by rw [eq_of_cut? hs, List.append_assoc]⟩
        exact hp (here.trans (List.cons_prefix_cons.2 ⟨rfl, hpre⟩))
      · exact ih hs later

theorem cut?_append_of_some (h : cut? mark s = some (before, after)) (t : List Char) :
    cut? mark (s ++ t) = some (before, after ++ t) := by
  induction s generalizing before with
  | nil =>
    rw [cut?] at h
    split at h
    case isTrue hm =>
      cases h
      rw [List.isEmpty_iff.1 hm]
      exact cut?_self_append [] t
    case isFalse => cases h
  | cons c s ih =>
    by_cases hp : mark <+: c :: s
    · have hlen := hp.length_le
      rw [cut?_cons_pos hp] at h
      cases h
      have long : mark <+: c :: (s ++ t) := hp.trans (List.prefix_append (c :: s) t)
      rw [List.cons_append, cut?_cons_pos long, ← List.cons_append,
        List.drop_append_of_le_length hlen]
    · rw [cut?_cons_neg hp, Option.map_eq_some_iff] at h
      obtain ⟨⟨b, a⟩, hs, hba⟩ := h
      cases hba
      by_cases hp' : mark <+: c :: (s ++ t)
      · -- the mark would begin here and end in `t`, but it was found in `s`
        have hlen : mark.length ≤ (c :: s).length := by
          rw [eq_of_cut? hs]
          simp
          omega
        exact absurd (List.prefix_of_prefix_length_le hp' (List.prefix_append (c :: s) t) hlen) hp
      · rw [List.cons_append, cut?_cons_neg hp', ih hs]
        rfl

/-- A mark does not reach into a text that lacks its last character. -/
theorem infix_of_infix_append {t : List Char} (hc : c ∉ t) (h : mark ++ [c] <:+: s ++ t) :
    mark ++ [c] <:+: s := by
  obtain ⟨before, after, h⟩ := h
  have here : before ++ (mark ++ [c]) <+: s ++ t := ⟨after, h⟩
  rcases List.prefix_or_prefix_of_prefix here (List.prefix_append s t) with inside | ⟨excess, hexcess⟩
  · exact (List.suffix_append before _).isInfix.trans inside.isInfix
  · rcases List.eq_nil_or_concat' excess with rfl | ⟨excess, last, rfl⟩
    · exact ⟨before, [], by simpa using hexcess.symm⟩
    · rw [← hexcess, List.prefix_append_right_inj] at here
      have hlast : c = last := by
        have := congrArg List.getLast? hexcess
        simpa using this.symm
      exact absurd (here.subset (by simp [hlast])) hc

/-- Where a mark is found does not depend on such a text behind it. -/
theorem cut?_append_of_not_mem (mark : List Char) {t : List Char} (hc : c ∉ t) (s : List Char) :
    cut? (mark ++ [c]) (s ++ t) = (cut? (mark ++ [c]) s).map fun p => (p.1, p.2 ++ t) := by
  cases hs : cut? (mark ++ [c]) s with
  | some p => exact cut?_append_of_some hs t
  | none =>
    rw [Option.map_none, cut?_eq_none_iff]
    exact fun h => cut?_eq_none_iff.1 hs (infix_of_infix_append hc h)

/-- A start that ends before a character that it does not have. -/
theorem prefix_of_prefix_append_cons {t : List Char} (hc : c ∉ mark) (h : mark <+: s ++ c :: t) :
    mark <+: s := by
  rcases Nat.lt_or_ge s.length mark.length with hlt | hle
  · have long : s ++ [c] <+: mark := by
      refine List.prefix_of_prefix_length_le ⟨t, by simp⟩ h ?_
      simpa [Nat.succ_le_iff] using hlt
    exact absurd (long.subset (by simp)) hc
  · exact List.prefix_of_prefix_length_le h (List.prefix_append s (c :: t)) hle

/-- A mark that is not in a text, and of which what follows the text is no later part, is looked for
behind the text. -/
theorem cut?_append_of_none (none : ¬ mark <:+: s) (hc : c ∉ mark.tail) (t : List Char) :
    cut? mark (s ++ c :: t) = (cut? mark (c :: t)).map fun p => (s ++ p.1, p.2) := by
  induction s with
  | nil => simp
  | cons a s ih =>
    rw [List.infix_cons_iff, not_or] at none
    have here : ¬ mark <+: a :: (s ++ c :: t) := by
      intro hp
      cases mark with
      | nil => exact none.1 List.nil_prefix
      | cons m mark =>
        obtain ⟨rfl, later⟩ := List.cons_prefix_cons.1 hp
        exact none.1 (List.cons_prefix_cons.2 ⟨rfl, prefix_of_prefix_append_cons hc later⟩)
    rw [List.cons_append, cut?_cons_neg here, ih none.2, Option.map_map]
    rfl

/-- The search for a mark passes over this text. -/
def Skips (mark s : List Char) : Prop :=
  ∀ t, cut? mark (s ++ t) = (cut? mark t).map fun p => (s ++ p.1, p.2)

theorem skips_nil : Skips mark [] := by
  intro t
  simp

theorem Skips.append {s' : List Char} (h : Skips mark s) (h' : Skips mark s') :
    Skips mark (s ++ s') := by
  intro t
  rw [List.append_assoc, h, h', Option.map_map]
  simp [Function.comp_def]

theorem Skips.flatMap {α : Type} {f : α → List Char} {as : List α} (h : ∀ a ∈ as, Skips mark (f a)) :
    Skips mark (as.flatMap f) := by
  induction as with
  | nil => exact skips_nil
  | cons a as ih =>
    rw [List.forall_mem_cons] at h
    rw [List.flatMap_cons]
    exact h.1.append (ih h.2)

theorem Skips.cons (h : Skips mark s) (here : ∀ t, ¬ mark <+: c :: (s ++ t)) : Skips mark (c :: s) := by
  intro t
  rw [List.cons_append, cut?_cons_neg (here t), h, Option.map_map]
  rfl

theorem skips_of_not_mem (h : c ∉ s) : Skips (c :: mark) s := by
  induction s with
  | nil => exact skips_nil
  | cons a s ih =>
    rw [List.mem_cons, not_or] at h
    refine (ih h.2).cons fun t hp => ?_
    exact h.1 (List.cons_prefix_cons.1 hp).1

theorem cut?_append_cons (h : c ∉ s) (t : List Char) : cut? [c] (s ++ c :: t) = some (s, t) := by
  have here : cut? [c] (c :: t) = some ([], t) := cut?_self_append _ _
  rw [skips_of_not_mem h, here, Option.map_some, List.append_nil]

/-- Where a character is in neither of two texts, the first one after them tells where they end. -/
theorem append_cons_inj_of_not_mem {s s' t t' : List Char} (hs : c ∉ s) (hs' : c ∉ s')
    (h : s ++ c :: t = s' ++ c :: t') : s = s' ∧ t = t' := by
  have same := cut?_append_cons hs t
  rw [h, cut?_append_cons hs', Option.some.injEq, Prod.mk.injEq] at same
  exact ⟨same.1.symm, same.2.symm⟩

theorem skips_singleton (hm : mark ≠ []) (hc : c ∉ mark) : Skips mark [c] := by
  refine skips_nil.cons fun t hp => ?_
  obtain ⟨m, mark, rfl⟩ := List.exists_cons_of_ne_nil hm
  exact hc (List.mem_cons.2 (.inl (List.cons_prefix_cons.1 hp).1.symm))

theorem skips_concat (hm : mark ≠ []) (none : ¬ mark <:+: s) (hc : c ∉ mark) : Skips mark (s ++ [c]) := by
  intro t
  have tail : c ∉ mark.tail := fun h => hc (List.mem_of_mem_tail h)
  rw [List.append_assoc, List.singleton_append, cut?_append_of_none none tail,
    ← List.singleton_append, skips_singleton hm hc t, Option.map_map]
  simp [Function.comp_def]

end Mender.Text
