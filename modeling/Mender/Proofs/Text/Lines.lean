import Mender.Text.Split

/-! The lines of a text that was put together from texts: those of the first, then those of the second,
and so on. Replacing a line by a text that spans several puts all of them in its place. -/

namespace Mender.Text

variable {α : Type}

theorem splitWhere_append_cons {p : α → Bool} {a : α} (ha : p a = true) (s t : List α) :
    splitWhere p (s ++ a :: t) = splitWhere p s ++ splitWhere p t := by
  induction s with
  | nil => simp [splitWhere_cons, ha]
  | cons b s ih =>
    rw [List.cons_append, splitWhere_cons, splitWhere_cons, ih]
    split
    · rfl
    · obtain ⟨first, rest, hs⟩ := List.exists_cons_of_ne_nil (splitWhere_ne_nil p s)
      rw [hs]
      rfl

theorem forall_not_of_mem_splitWhere {p : α → Bool} {s piece : List α} (h : piece ∈ splitWhere p s) :
    ∀ a ∈ piece, p a = false := by
  induction s generalizing piece with
  | nil =>
    obtain rfl := List.mem_singleton.1 h
    intro a ha
    cases ha
  | cons b s ih =>
    rw [splitWhere_cons] at h
    split at h
    case isTrue =>
      rcases List.mem_cons.1 h with rfl | h
      · intro a ha
        cases ha
      · exact ih h
    case isFalse hb =>
      obtain ⟨first, rest, hs⟩ := List.exists_cons_of_ne_nil (splitWhere_ne_nil p s)
      rw [hs, List.modifyHead_cons] at h
      rcases List.mem_cons.1 h with rfl | h
      · intro a ha
        rcases List.mem_cons.1 ha with rfl | ha
        · exact Bool.eq_false_iff.2 hb
        · exact ih (hs ▸ List.mem_cons_self) a ha
      · exact ih (hs ▸ List.mem_cons_of_mem _ h)

theorem flatMap_splitWhere {p : α → Bool} {pieces : List (List α)}
    (h : ∀ piece ∈ pieces, ∀ a ∈ piece, p a = false) : pieces.flatMap (splitWhere p) = pieces := by
  induction pieces with
  | nil => rfl
  | cons piece pieces ih =>
    rw [List.forall_mem_cons] at h
    rw [List.flatMap_cons, splitWhere_of_forall_not h.1, ih h.2]
    rfl

theorem intercalate_cons (sep piece : List α) (pieces : List (List α)) :
    sep.intercalate (piece :: pieces) = piece ++ pieces.flatMap (sep ++ ·) := by
  induction pieces generalizing piece with
  | nil => rw [List.intercalate_singleton, List.flatMap_nil, List.append_nil]
  | cons next pieces ih =>
    rw [intercalate_cons_cons, ih, List.flatMap_cons, List.append_assoc, List.append_assoc]

/-- The list with `new` in place of its element `i`. -/
def splice (i : Nat) (new ls : List α) : List α := ls.take i ++ (new ++ ls.drop (i + 1))

section Separator

variable [BEq α] [LawfulBEq α] (sep : α)

/-- Where lists were joined by separators, these part the pieces of each. -/
theorem splitWhere_intercalate {pieces : List (List α)} (h : pieces ≠ []) :
    splitWhere (· == sep) ([sep].intercalate pieces) = pieces.flatMap (splitWhere (· == sep)) := by
  induction pieces with
  | nil => exact absurd rfl h
  | cons piece pieces ih =>
    cases pieces with
    | nil => simp [List.intercalate_singleton]
    | cons next pieces =>
      rw [intercalate_cons_cons, List.append_assoc, List.singleton_append,
        splitWhere_append_cons (p := (· == sep)) (beq_self_eq_true sep), ih (List.cons_ne_nil _ _)]
      rfl

/-- Where one piece is replaced, the pieces of what replaces it stand in its place. -/
theorem splitWhere_intercalate_set {pieces : List (List α)} {piece : List α} {i : Nat}
    (hpieces : ∀ p ∈ pieces, ∀ a ∈ p, (a == sep) = false) (h : i < pieces.length) :
    splitWhere (· == sep) ([sep].intercalate (pieces.set i piece)) =
      splice i (splitWhere (· == sep) piece) pieces := by
  have hne : pieces.set i piece ≠ [] :=
    mt (List.set_eq_nil_iff _ _).1 (List.ne_nil_of_length_pos (Nat.zero_lt_of_lt h))
  rw [splitWhere_intercalate sep hne, List.set_eq_take_append_cons_drop, if_pos h, List.flatMap_append,
    List.flatMap_cons, flatMap_splitWhere fun p hp => hpieces p (List.mem_of_mem_take hp),
    flatMap_splitWhere fun p hp => hpieces p (List.mem_of_mem_drop hp), splice]

end Separator

theorem lines_ne_nil (s : List Char) : lines s ≠ [] := splitWhere_ne_nil _ s

theorem lines_of_not_mem {s : List Char} (h : '\n' ∉ s) : lines s = [s] :=
  splitWhere_of_forall_not fun _ hc => beq_eq_false_iff_ne.2 fun he => h (he ▸ hc)

theorem not_mem_of_mem_lines {s l : List Char} (h : l ∈ lines s) : '\n' ∉ l := fun hmem => by
  have := forall_not_of_mem_splitWhere h '\n' hmem
  cases this

theorem lines_append (s t : List Char) : lines (s ++ '\n' :: t) = lines s ++ lines t :=
  splitWhere_append_cons rfl s t

theorem unlines_singleton (l : List Char) : unlines [l] = l := List.intercalate_singleton

theorem unlines_cons_cons (l l' : List Char) (ls : List (List Char)) :
    unlines (l :: l' :: ls) = l ++ '\n' :: unlines (l' :: ls) := by
  rw [unlines, intercalate_cons_cons, List.append_assoc]
  rfl

theorem lines_unlines_flatMap {ls : List (List Char)} (h : ls ≠ []) :
    lines (unlines ls) = ls.flatMap lines := splitWhere_intercalate '\n' h

theorem flatMap_lines {ls : List (List Char)} (h : ∀ l ∈ ls, '\n' ∉ l) : ls.flatMap lines = ls :=
  flatMap_splitWhere fun l hl _ hc => beq_eq_false_iff_ne.2 fun he => h l hl (he ▸ hc)

theorem lines_unlines {ls : List (List Char)} (hne : ls ≠ []) (h : ∀ l ∈ ls, '\n' ∉ l) :
    lines (unlines ls) = ls := by
  rw [lines_unlines_flatMap hne, flatMap_lines h]

theorem length_lines_eq_one_iff {s : List Char} : (lines s).length = 1 ↔ '\n' ∉ s := by
  constructor
  · intro h
    obtain ⟨l, hl⟩ := List.length_eq_one_iff.1 h
    have hs : unlines (lines s) = s := unlines_lines s
    rw [hl, unlines_singleton] at hs
    subst hs
    exact not_mem_of_mem_lines (hl ▸ List.mem_singleton_self l)
  · intro h
    rw [lines_of_not_mem h]
    rfl

theorem lines_unlines_set {s fixed : List Char} {i : Nat} (h : i < (lines s).length) :
    lines (unlines ((lines s).set i fixed)) = splice i (lines fixed) (lines s) :=
  splitWhere_intercalate_set '\n' (fun _ => forall_not_of_mem_splitWhere) h

end Mender.Text
