import Mathlib.Data.List.Basic
import Mender.Proofs.Text.Lines

/-! Texts that tell where they end, whatever follows them. Writing them one after the other loses
nothing. A text none of whose lines opens a tag ends where the first line does that opens one. -/

namespace Mender.Text

section Delimited

variable {α : Type} {write : α → List Char}

/-- What is written tells what it stands for, and where it ends. -/
def Delimited (write : α → List Char) : Prop :=
  ∀ a b s t, write a ++ s = write b ++ t → a = b ∧ s = t

theorem Delimited.cons (h : Delimited write) (c : Char) : Delimited fun a => c :: write a :=
  fun a b s t heq => h a b s t (List.cons.inj heq).2

/-- Where none of them starts, a row of delimited texts ends. -/
theorem Delimited.flatMap_append_inj (h : Delimited write) {stop : List Char}
    (stops : ∀ a s, stop ≠ write a ++ s) {as bs : List α}
    (same : as.flatMap write ++ stop = bs.flatMap write ++ stop) : as = bs := by
  induction as generalizing bs with
  | nil =>
    cases bs with
    | nil => rfl
    | cons b bs =>
      rw [List.flatMap_cons, List.append_assoc] at same
      exact absurd same (stops b _)
  | cons a as ih =>
    cases bs with
    | nil =>
      rw [List.flatMap_cons, List.append_assoc] at same
      exact absurd same.symm (stops a _)
    | cons b bs =>
      rw [List.flatMap_cons, List.flatMap_cons, List.append_assoc, List.append_assoc] at same
      obtain ⟨rfl, rest⟩ := h _ _ _ _ same
      rw [ih rest]

theorem unlines_cons (l : List Char) (ls : List (List Char)) :
    unlines (l :: ls) = l ++ ls.flatMap ('\n' :: ·) := by
  induction ls generalizing l with
  | nil => rw [unlines_singleton, List.flatMap_nil, List.append_nil]
  | cons l' ls ih => rw [unlines_cons_cons, ih, List.flatMap_cons, List.cons_append]

/-- Delimited texts on lines of their own, down to a line on which none of them starts. -/
theorem Delimited.unlines_append_inj (h : Delimited write) {stop : List Char}
    (stops : ∀ a s, '\n' :: stop ≠ write a ++ s) (parts : ∀ a s, stop ≠ write a ++ s) {as bs : List α}
    (same : unlines (as.map write) ++ '\n' :: stop = unlines (bs.map write) ++ '\n' :: stop) : as = bs := by
  have later : ∀ a s, '\n' :: stop ≠ '\n' :: write a ++ s := fun a s heq => parts a s (List.cons.inj heq).2
  cases as with
  | nil =>
    cases bs with
    | nil => rfl
    | cons b bs =>
      rw [List.map_cons, unlines_cons, List.append_assoc] at same
      exact absurd same (stops b _)
  | cons a as =>
    cases bs with
    | nil =>
      rw [List.map_cons, unlines_cons, List.append_assoc] at same
      exact absurd same.symm (stops a _)
    | cons b bs =>
      rw [List.map_cons, List.map_cons, unlines_cons, unlines_cons, List.append_assoc,
        List.append_assoc] at same
      obtain ⟨rfl, rest⟩ := h _ _ _ _ same
      rw [List.flatMap_map, List.flatMap_map] at rest
      rw [(h.cons '\n').flatMap_append_inj later rest]

end Delimited

section Untagged

/-- The first character of a line that is no space. -/
def lead? (l : List Char) : Option Char := (l.dropWhile (· == ' ')).head?

theorem lead?_append (l r : List Char) : lead? (l ++ r) = (lead? l).or (lead? r) := by
  unfold lead?
  rw [List.dropWhile_append]
  split
  case isTrue none => rw [List.isEmpty_iff.1 none]; rfl
  case isFalse some =>
    rw [List.head?_append]
    cases h : l.dropWhile (· == ' ') with
    | nil => rw [h] at some; exact absurd rfl some
    | cons c s => rfl

/-- No line of the text opens a tag. -/
def Untagged (s : List Char) : Prop := ∀ l ∈ lines s, lead? l ≠ some '<'

theorem untagged_of_oneLine {s : List Char} (oneLine : '\n' ∉ s) (h : lead? s ≠ some '<') : Untagged s := by
  intro l hl
  rw [lines_of_not_mem oneLine] at hl
  obtain rfl := List.mem_singleton.1 hl
  exact h

/-- Where two texts meet, the last line of one and the first of the other become one line. -/
theorem exists_lines_append (s t : List Char) :
    ∃ init last first tail, lines s = init ++ [last] ∧ lines t = first :: tail ∧
      lines (s ++ t) = init ++ (last ++ first) :: tail := by
  obtain ⟨first, tail, ht⟩ := List.exists_cons_of_ne_nil (lines_ne_nil t)
  induction s with
  | nil => exact ⟨[], [], first, tail, rfl, ht, ht⟩
  | cons c s ih =>
    obtain ⟨init, last, _, _, hs, ht', happend⟩ := ih
    obtain ⟨rfl, rfl⟩ := List.cons.inj (ht.symm.trans ht')
    have start (s : List Char) :
        lines (c :: s) = if c == '\n' then [] :: lines s else (lines s).modifyHead (c :: ·) := rfl
    rw [List.cons_append, start, start, hs, happend]
    split
    case isTrue => exact ⟨[] :: init, last, first, tail, rfl, ht, rfl⟩
    case isFalse =>
      cases init with
      | nil => exact ⟨[], c :: last, first, tail, rfl, ht, rfl⟩
      | cons l init => exact ⟨(c :: l) :: init, last, first, tail, rfl, ht, rfl⟩

theorem Untagged.append {s t : List Char} (hs : Untagged s) (ht : Untagged t) : Untagged (s ++ t) := by
  obtain ⟨init, last, first, tail, hlast, hfirst, happend⟩ := exists_lines_append s t
  intro l hl
  rw [happend] at hl
  rcases List.mem_append.1 hl with hl | hl
  · exact hs l (by simp [hlast, hl])
  · rcases List.mem_cons.1 hl with rfl | hl
    · have left := hs last (by simp [hlast])
      have right := ht first (by simp [hfirst])
      rw [lead?_append]
      cases h : lead? last with
      | none => exact right
      | some c => rwa [h] at left
    · exact ht l (by simp [hfirst, hl])

theorem untagged_of_not_mem {s : List Char} (h : '<' ∉ s) : Untagged s := by
  induction s with
  | nil => exact untagged_of_oneLine List.not_mem_nil (by decide)
  | cons c s ih =>
    rw [List.mem_cons, not_or] at h
    have single : Untagged [c] := by
      by_cases newline : c = '\n'
      · subst newline
        unfold Untagged
        decide
      · refine untagged_of_oneLine (by simpa using Ne.symm newline) fun hlead => h.1 ?_
        exact List.mem_singleton.1 ((List.dropWhile_sublist _).subset (List.mem_of_head? hlead))
    exact single.append (ih h.2)

theorem lead?_of_mem_head? {t first : List Char} (h : lead? t = some '<')
    (hfirst : first ∈ (lines t).head?) : lead? first = some '<' := by
  obtain ⟨tail, ht⟩ := List.head?_eq_some_iff.1 hfirst
  rw [← unlines_lines t, ht, unlines_cons, lead?_append] at h
  cases hl : lead? first with
  | none =>
    rw [hl] at h
    cases tail <;> cases h
  | some c => rwa [hl] at h

/-- A text without tags ends before the first tag that opens on a line of its own. -/
theorem Untagged.append_inj {s s' t t' : List Char} (hs : Untagged s) (hs' : Untagged s')
    (ht : lead? t = some '<') (ht' : lead? t' = some '<') (h : s ++ '\n' :: t = s' ++ '\n' :: t') :
    s = s' ∧ t = t' := by
  have untagged {s t : List Char} (hs : Untagged s) (ht : lead? t = some '<') :
      (lines (s ++ '\n' :: t)).takeWhile (fun l => lead? l != some '<') = lines s := by
    obtain ⟨first, tail, hfirst⟩ := List.exists_cons_of_ne_nil (lines_ne_nil t)
    have tagged : lead? first = some '<' := lead?_of_mem_head? ht (by rw [hfirst]; rfl)
    rw [lines_append, hfirst, List.takeWhile_append_of_pos fun l hl => bne_iff_ne.2 (hs l hl),
      List.takeWhile_cons_of_neg (by simp [tagged]), List.append_nil]
  have same : lines s = lines s' := by
    rw [← untagged hs ht, ← untagged hs' ht', h]
  have hss : s = s' := by
    rw [← unlines_lines s, same, unlines_lines]
  subst hss
  exact ⟨rfl, (List.cons.inj (List.append_cancel_left h)).2⟩

end Untagged

end Mender.Text
