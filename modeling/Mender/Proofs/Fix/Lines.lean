import Mender.Proofs.Fix.Confinement
import Mender.Proofs.Number.Whole
import Mender.Proofs.Text.Splice

/-! What fixes do to the lines of one file. A fix that spans several lines moves those below it down,
and a number that named one of them then names another. -/

namespace Mender

open Mender.Text

namespace Number

/-- The line that a number names, counted from zero. -/
def row? (n : Number) : Option Nat :=
  match n.toNat? with
  | some (i + 1) => some i
  | _ => none

theorem toNat?_of_row? {n : Number} {i : Nat} (h : n.row? = some i) : n.toNat? = some (i + 1) := by
  unfold row? at h
  split at h
  case h_1 j hj => rw [hj, Option.some.inj h]
  case h_2 => cases h

theorem lt_iff_of_row? {m n : Number} {i j : Nat} (hm : m.row? = some i) (hn : n.row? = some j) :
    m.lt n = true ↔ i < j := by
  obtain ⟨c, hc, rfl, rfl⟩ := of_toNat? (toNat?_of_row? hm)
  obtain ⟨d, hd, rfl, rfl⟩ := of_toNat? (toNat?_of_row? hn)
  have hpos := stepsPerOne_pos
  have scale : (((i + 1 : Nat) : Int) * stepsPerOne < ((j + 1 : Nat) : Int) * stepsPerOne) ↔ i < j := by
    rw [Int.mul_lt_mul_right (by omega)]
    omega
  rw [← scale, lt, le]
  simp only [Bool.and_eq_true, decide_eq_true_eq, bne_iff_ne, ne_eq, finite.injEq]
  omega

theorem ne_iff_of_row? {m n : Number} {i j : Nat} (hm : m.row? = some i) (hn : n.row? = some j) :
    m ≠ n ↔ i ≠ j := by
  constructor
  · rintro hne rfl
    obtain ⟨c, hc, rfl, rfl⟩ := of_toNat? (toNat?_of_row? hm)
    obtain ⟨d, hd, rfl, rfl⟩ := of_toNat? (toNat?_of_row? hn)
    exact hne rfl
  · rintro hne rfl
    exact hne (Option.some.inj (hm.symm.trans hn))

end Number

def Text.lineAt (s : List Char) (n : Number) : Option (List Char) := n.row?.bind fun i => (lines s)[i]?

namespace Fix

theorem replaceLine_eq_some_iff {s s' fixed : List Char} {n : Number} :
    replaceLine s n fixed = some s' ↔
      ∃ i, n.row? = some i ∧ i < (lines s).length ∧ unlines ((lines s).set i fixed) = s' := by
  constructor
  · intro h
    unfold replaceLine at h
    split at h
    case h_1 i hi =>
      split at h
      case isTrue hlt => exact ⟨i, by rw [Number.row?, hi], hlt, Option.some.inj h⟩
      case isFalse => cases h
    case h_2 => cases h
  · rintro ⟨i, hi, hlt, rfl⟩
    rw [replaceLine, Number.toNat?_of_row? hi]
    exact if_pos hlt

def edit? (f : Fix) : Option (Edit (List Char)) :=
  f.line.row?.map fun i => ⟨i, lines f.fixed.toList, lines_ne_nil _⟩

def edits (root p : Path) (fs : List Fix) : List (Edit (List Char)) :=
  (fs.filter (·.target root = p)).filterMap edit?

theorem edited_edits_cons (root p : Path) (f : Fix) (fs : List Fix) (ls : List (List Char)) :
    edited ls (edits root p (f :: fs)) = edited (edited ls (edits root p [f])) (edits root p fs) := by
  by_cases h : f.target root = p
  · cases he : f.edit? <;> simp [edits, h, he, edited]
  · simp [edits, h, edited]

variable {root p : Path} {t t' : Tree} {f : Fix} {fs : List Fix}

theorem lines_of_applyTo {s' : List Char} (h : f.applyTo root t = .ok t')
    (after : t'.readText p = .ok s') :
    ∃ s, t.readText p = .ok s ∧ lines s' = edited (lines s) (edits root p [f]) := by
  obtain ⟨file, s, -, hfile, readable, hs, rfl⟩ := of_applyTo_eq_ok h
  obtain ⟨file', hfile', readable', rfl⟩ := Tree.readText_eq_ok_iff.1 after
  rw [Tree.node?_set_file hfile] at hfile'
  by_cases hp : p = f.target root
  · subst hp
    rw [if_pos rfl] at hfile'
    cases hfile'
    obtain ⟨i, hi, hlt, rfl⟩ := replaceLine_eq_some_iff.1 hs
    refine ⟨_, Tree.readText_eq_ok_iff.2 ⟨file, hfile, readable, rfl⟩, ?_⟩
    rw [decode_encode, lines_unlines_set hlt]
    simp [edits, edit?, hi, edited]
  · rw [if_neg hp] at hfile'
    refine ⟨_, Tree.readText_eq_ok_iff.2 ⟨file', hfile', readable', rfl⟩, ?_⟩
    simp [edits, Ne.symm hp, edited]

/-- Where nothing fails, the first fix is applied, and then the others. -/
theorem of_failures_cons_eq_nil (h : failures root t (f :: fs) = []) :
    ∃ t', f.applyTo root t = .ok t' ∧ failures root t' fs = [] ∧
      applyAll root t (f :: fs) = applyAll root t' fs := by
  cases ht : f.applyTo root t with
  | ok t' =>
    refine ⟨t', rfl, ?_, ?_⟩
    · simpa [failures, outcomes, ht] using h
    · simp [applyAll, attempt, ht]
  | error obstacle => simp [failures, outcomes, ht] at h

theorem lines_of_applyAll {s' : List Char} (done : failures root t fs = [])
    (after : (applyAll root t fs).readText p = .ok s') :
    ∃ s, t.readText p = .ok s ∧ lines s' = edited (lines s) (edits root p fs) := by
  induction fs generalizing t with
  | nil => exact ⟨s', after, rfl⟩
  | cons f fs ih =>
    obtain ⟨t', ht, rest, happ⟩ := of_failures_cons_eq_nil done
    rw [happ] at after
    obtain ⟨s, hs, hlines⟩ := ih rest after
    obtain ⟨s₀, hs₀, hlines₀⟩ := lines_of_applyTo ht hs
    exact ⟨s₀, hs₀, by rw [edited_edits_cons, ← hlines₀, hlines]⟩

theorem applyAll_append (root : Path) (t : Tree) (fs gs : List Fix) :
    applyAll root t (fs ++ gs) = applyAll root (applyAll root t fs) gs := List.foldl_append

theorem length_outcomes (root : Path) (t : Tree) (fs : List Fix) :
    (outcomes root t fs).length = fs.length := by
  induction fs generalizing t with
  | nil => rfl
  | cons f fs ih =>
    rw [outcomes]
    split <;> exact congrArg _ (ih _)

theorem outcomes_append (root : Path) (t : Tree) (fs gs : List Fix) :
    outcomes root t (fs ++ gs) = outcomes root t fs ++ outcomes root (applyAll root t fs) gs := by
  induction fs generalizing t with
  | nil => rfl
  | cons f fs ih =>
    rw [List.cons_append, outcomes, outcomes, applyAll, List.foldl_cons, attempt]
    cases f.applyTo root t with
    | ok t' => exact congrArg _ (ih t')
    | error obstacle => exact congrArg _ (ih t)

theorem failures_append (root : Path) (t : Tree) (fs gs : List Fix) :
    failures root t (fs ++ gs) = failures root t fs ++ failures root (applyAll root t fs) gs := by
  rw [failures, outcomes_append, List.filterMap_append]
  rfl

/-- A fix that is applied names a line. -/
theorem row?_of_failures_eq_nil (done : failures root t fs = []) :
    ∀ f ∈ fs, ∃ i, f.line.row? = some i := by
  induction fs generalizing t with
  | nil => simp
  | cons f fs ih =>
    obtain ⟨t', ht, rest, -⟩ := of_failures_cons_eq_nil done
    obtain ⟨file, s, -, -, -, hs, -⟩ := of_applyTo_eq_ok ht
    obtain ⟨i, hi, -, -⟩ := replaceLine_eq_some_iff.1 hs
    exact List.forall_mem_cons.2 ⟨⟨i, hi⟩, ih rest⟩

/-- The fix is to a line of the file at `p` above the line of this number, and spans several. -/
def Shifts (root p : Path) (line : Number) (f : Fix) : Prop :=
  f.target root = p ∧ f.line.lt line = true ∧ '\n' ∈ f.fixed.toList

/-- Fixes to other lines leave a line where it was, unless they shift it. -/
theorem moved_edits_iff {line : Number} {k : Nat} (hk : line.row? = some k)
    (rows : ∀ f ∈ fs, ∃ i, f.line.row? = some i)
    (apart : ∀ f ∈ fs, f.target root = p → f.line ≠ line) :
    moved (edits root p fs) k = some k ↔ ∀ f ∈ fs, ¬ Shifts root p line f := by
  rw [moved_eq_self_iff]
  simp only [edits, List.mem_filterMap, List.mem_filter, decide_eq_true_eq]
  constructor
  · rintro stays f hf ⟨hp, hlt, hmem⟩
    obtain ⟨i, hi⟩ := rows f hf
    rw [Number.lt_iff_of_row? hi hk] at hlt
    have he : f.edit? = some ⟨i, lines f.fixed.toList, lines_ne_nil _⟩ := by
      rw [edit?, hi]
      rfl
    rcases stays _ ⟨f, ⟨hf, hp⟩, he⟩ with habove | ⟨-, hone⟩
    · exact Nat.lt_asymm hlt habove
    · exact length_lines_eq_one_iff.1 hone hmem
  · rintro still e ⟨f, ⟨hf, hp⟩, he⟩
    obtain ⟨i, hi⟩ := rows f hf
    have hne := (Number.ne_iff_of_row? hi hk).1 (apart f hf hp)
    rw [edit?, hi] at he
    obtain rfl := Option.some.inj he
    by_cases hlt : i < k
    · refine .inr ⟨hlt, length_lines_eq_one_iff.2 fun hmem => still f hf ⟨hp, ?_, hmem⟩⟩
      exact (Number.lt_iff_of_row? hi hk).2 hlt
    · exact .inl (by dsimp only; omega)

/-- A number that no fix names goes on naming the same line if no fix shifts it, and only then, as far
as the line can be told from the others. -/
theorem lineAt_applyAll {line : Number} {s' : List Char} (done : failures root t fs = [])
    (after : (applyAll root t fs).readText p = .ok s')
    (apart : ∀ f ∈ fs, f.target root = p → f.line ≠ line) :
    ∃ s, t.readText p = .ok s ∧ ∀ a, lineAt s line = some a →
      ((∀ f ∈ fs, ¬ Shifts root p line f) → lineAt s' line = some a) ∧
        ((lines s).count a = 1 → (∀ f ∈ fs, f.target root = p → a ∉ lines f.fixed.toList) →
          (lineAt s' line = some a ↔ ∀ f ∈ fs, ¬ Shifts root p line f)) := by
  obtain ⟨s, before, hlines⟩ := lines_of_applyAll done after
  refine ⟨s, before, fun a ha => ?_⟩
  obtain ⟨k, hk, hka⟩ := Option.bind_eq_some_iff.1 ha
  have stays := moved_edits_iff hk (row?_of_failures_eq_nil done) apart
  rw [lineAt, hk, Option.bind_some, hlines, ← stays]
  refine ⟨fun hmoved => getElem?_edited_of_moved hmoved hka, fun single foreign => ?_⟩
  have stands := standsAt_of_count_eq_one single hka
  have hpieces : ∀ e ∈ edits root p fs, a ∉ e.pieces := by
    intro e he
    simp only [edits, List.mem_filterMap, List.mem_filter, decide_eq_true_eq] at he
    obtain ⟨f, ⟨hf, hp⟩, he⟩ := he
    obtain ⟨i, -, rfl⟩ := Option.map_eq_some_iff.1 he
    exact foreign f hf hp
  exact stands.edited hpieces k

end Fix
end Mender
