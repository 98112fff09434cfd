import Mender.Text.Blank

/-! Cutting a list at its separators and at the first place where a mark stands. Joining the pieces
gives the list back, so nothing is lost at a cut. -/

namespace Mender.Text

variable {α : Type}

/-- The pieces between the elements that satisfy `p`; there is always at least one piece. -/
def splitWhere (p : α → Bool) (s : List α) : List (List α) :=
  s.foldr (fun a pieces => if p a then [] :: pieces else pieces.modifyHead (a :: ·)) [[]]

@[simp] theorem splitWhere_nil (p : α → Bool) : splitWhere p [] = [[]] := rfl

theorem splitWhere_cons (p : α → Bool) (a : α) (s : List α) :
    splitWhere p (a :: s) =
      if p a then [] :: splitWhere p s else (splitWhere p s).modifyHead (a :: ·) := rfl

theorem splitWhere_ne_nil (p : α → Bool) (s : List α) : splitWhere p s ≠ [] := by
  induction s with
  | nil => simp
  | cons a s ih =>
    rw [splitWhere_cons]
    split
    · simp
    · match splitWhere p s, ih with
      | _ :: _, _ => simp

theorem intercalate_cons_cons (sep piece next : List α) (pieces : List (List α)) :
    sep.intercalate (piece :: next :: pieces) = piece ++ sep ++ sep.intercalate (next :: pieces) := by
  simp [List.intercalate, List.intersperse]

theorem intercalate_modifyHead (sep : List α) (a : α) {pieces : List (List α)} (h : pieces ≠ []) :
    sep.intercalate (pieces.modifyHead (a :: ·)) = a :: sep.intercalate pieces := by
  match pieces, h with
  | [_], _ => rfl
  | _ :: _ :: _, _ => rfl

theorem intercalate_splitWhere [BEq α] [LawfulBEq α] (sep : α) (s : List α) :
    [sep].intercalate (splitWhere (· == sep) s) = s := by
  induction s with
  | nil => rfl
  | cons a s ih =>
    rw [splitWhere_cons]
    have hne := splitWhere_ne_nil (· == sep) s
    by_cases h : (a == sep) = true
    · obtain rfl := eq_of_beq h
      rw [if_pos h]
      match hs : splitWhere (· == a) s, hne with
      | _ :: _, _ =>
        rw [intercalate_cons_cons, ← hs, ih]
        rfl
    · rw [if_neg h, intercalate_modifyHead _ _ hne, ih]

theorem splitWhere_of_forall_not {p : α → Bool} {s : List α} (h : ∀ a ∈ s, p a = false) :
    splitWhere p s = [s] := by
  induction s with
  | nil => rfl
  | cons a s ih =>
    rw [List.forall_mem_cons] at h
    rw [splitWhere_cons, h.1, ih h.2]
    rfl

def lines (s : List Char) : List (List Char) := splitWhere (· == '\n') s

def unlines (ls : List (List Char)) : List Char := ['\n'].intercalate ls

theorem unlines_lines (s : List Char) : unlines (lines s) = s := intercalate_splitWhere '\n' s

/-- The words of a text: what stands between the blanks, empty pieces left out. -/
def words (s : List Char) : List (List Char) :=
  (splitWhere isBlank s).filter fun w => !w.isEmpty

/-- What stands before and after the first place where `mark` is written. -/
def cut? (mark : List Char) : List Char → Option (List Char × List Char)
  | [] => if mark.isEmpty then some ([], []) else none
  | c :: s =>
    if mark.isPrefixOf (c :: s) then some ([], (c :: s).drop mark.length)
    else (cut? mark s).map fun (before, after) => (c :: before, after)

theorem eq_of_cut? {mark s before after : List Char} (h : cut? mark s = some (before, after)) :
    s = before ++ mark ++ after := by
  induction s generalizing before after with
  | nil =>
    simp only [cut?] at h
    split at h
    case isTrue hm =>
      simp only [Option.some.injEq, Prod.mk.injEq] at h
      simp [← h.1, ← h.2, List.isEmpty_iff.1 hm]
    case isFalse => exact absurd h (by simp)
  | cons c s ih =>
    simp only [cut?] at h
    split at h
    case isTrue hm =>
      obtain ⟨t, ht⟩ := List.isPrefixOf_iff_prefix.1 hm
      simp only [Option.some.injEq, Prod.mk.injEq] at h
      rw [← h.1, ← h.2, ← ht]
      simp
    case isFalse =>
      obtain ⟨⟨b, a⟩, hs, hba⟩ := Option.map_eq_some_iff.1 h
      simp only [Prod.mk.injEq] at hba
      rw [← hba.1, ← hba.2, ih hs]
      rfl

theorem length_lt_of_cut? {mark s before after : List Char} (hm : mark ≠ [])
    (h : cut? mark s = some (before, after)) : after.length < s.length := by
  have := List.length_pos_iff.2 hm
  rw [eq_of_cut? h]
  simp only [List.length_append]
  omega

def dropMark? (mark s : List Char) : Option (List Char) :=
  if mark.isPrefixOf s then some (s.drop mark.length) else none

def dropEndMark? (mark s : List Char) : Option (List Char) :=
  (dropMark? mark.reverse s.reverse).map List.reverse

def occursIn (part s : List Char) : Bool := (cut? part s).isSome

end Mender.Text
