import Mathlib.Data.List.Infix
import Mathlib.Tactic.NthRewrite
import Mender.Proofs.Tree.Containment

/-! Places that are named without detours, and the texts that lead to them: the text of the place itself,
names that go up and then down, and names that begin like others. -/

namespace Mender.Path

open Mender.Text

/-- A place that is named without detours. -/
def IsNormal (p : Path) : Prop := ∀ name ∈ p, IsSegment name

section Normal

variable {p q base down : Path} {name ending : Name} {text : List Char}

theorem isNormal_nil : IsNormal [] := List.forall_mem_nil _

theorem IsNormal.append (hp : IsNormal p) (hq : IsNormal q) : IsNormal (p ++ q) :=
  List.forall_mem_append.2 ⟨hp, hq⟩

theorem step_of_segment (h : IsSegment name) (p : Path) : step p name = p ++ [name] := by
  rw [step, if_neg (not_or.2 ⟨h.ne_nil, h.ne_here⟩), if_neg h.ne_up]

theorem foldl_step_of_isNormal (h : IsNormal down) (p : Path) : down.foldl step p = p ++ down := by
  induction down generalizing p with
  | nil => exact (List.append_nil p).symm
  | cons name down ih =>
    obtain ⟨first, rest⟩ := List.forall_mem_cons.1 h
    rw [List.foldl_cons, step_of_segment first, ih rest, List.append_assoc, List.singleton_append]

/-- Whatever detours a text makes, the place it leads to is named without them. -/
theorem isNormal_resolve (h : IsNormal base) (text : List Char) : IsNormal (resolve base text) := by
  obtain ⟨above, down, hresolve, habove, hdown⟩ := exists_resolve_eq base text
  rw [hresolve]
  exact IsNormal.append (fun name hname => h name (habove.subset hname)) hdown

theorem foldl_step_namesOf (noSlash : ∀ name ∈ down, '/' ∉ name) (p : Path) :
    (namesOf (['/'].intercalate down)).foldl step p = down.foldl step p := by
  cases down with
  | nil => rfl
  | cons name names =>
    have pieces : ∀ piece ∈ name :: names, ∀ c ∈ piece, (c == '/') = false := fun piece hpiece c hc =>
      beq_eq_false_iff_ne.2 fun same => noSlash piece hpiece (same ▸ hc)
    rw [namesOf, splitWhere_intercalate '/' (List.cons_ne_nil _ _), flatMap_splitWhere pieces]

theorem resolve_chars (h : IsNormal p) (base : Path) : resolve base p.chars = p := by
  have names : namesOf p.chars = [] :: namesOf (['/'].intercalate p) := by
    rw [namesOf, chars, splitWhere_cons]
    rfl
  have start : resolve base p.chars = (namesOf p.chars).foldl step [] := by
    rw [resolve, if_pos (by rfl)]
  rw [start, names, List.foldl_cons, foldl_step_namesOf fun name hname => (h name hname).noSlash]
  exact foldl_step_of_isNormal h []

theorem not_isAbsolute_intercalate (h : ∀ name ∈ down, name ≠ [] ∧ '/' ∉ name) :
    isAbsolute (['/'].intercalate down) = false := by
  cases down with
  | nil => rfl
  | cons name names =>
    obtain ⟨some, noSlash⟩ := h name List.mem_cons_self
    obtain ⟨c, name, rfl⟩ := List.exists_cons_of_ne_nil some
    rw [intercalate_cons, isAbsolute, List.cons_append, List.head?_cons]
    simpa using Ne.symm (List.ne_of_not_mem_cons noSlash)

/-- A text that starts with a name is resolved from the base. -/
theorem resolve_intercalate (h : ∀ name ∈ down, name ≠ [] ∧ '/' ∉ name) (base : Path) :
    resolve base (['/'].intercalate down) = down.foldl step base := by
  rw [resolve, not_isAbsolute_intercalate h, if_neg Bool.false_ne_true,
    foldl_step_namesOf fun name hname => (h name hname).2]

theorem foldl_step_replicate_up (n : Nat) (p : Path) :
    (List.replicate n up).foldl step p = p.take (p.length - n) := by
  induction n generalizing p with
  | zero => rw [List.replicate_zero, List.foldl_nil, Nat.sub_zero, List.take_length]
  | succ n ih =>
    have goesUp : step p up = p.dropLast := rfl
    rw [List.replicate_succ, List.foldl_cons, goesUp, ih, List.dropLast_eq_take, List.take_take,
      List.length_take]
    congr 1
    omega

def detour (n : Nat) (down : Path) : List Char := ['/'].intercalate (List.replicate n up ++ down)

theorem resolve_detour (h : IsNormal down) (base : Path) (n : Nat) :
    resolve base (detour n down) = base.take (base.length - n) ++ down := by
  have named : ∀ name ∈ List.replicate n up ++ down, name ≠ [] ∧ '/' ∉ name := by
    refine List.forall_mem_append.2 ⟨fun name hname => ?_, fun name hname => ?_⟩
    · rw [List.eq_of_mem_replicate hname]
      decide
    · exact ⟨(h name hname).ne_nil, (h name hname).noSlash⟩
  rw [detour, resolve_intercalate named, List.foldl_append, foldl_step_replicate_up,
    foldl_step_of_isNormal h]

theorem isSegment_dotted (some : name ≠ []) (noSlash : '/' ∉ name) : IsSegment (up ++ name) where
  ne_nil := by simp [up]
  ne_up := by simpa using some
  noSlash := by simpa [up] using noSlash
  ne_here := by simp [up, here]

theorem IsSegment.append (h : IsSegment name) (some : ending ≠ []) (noSlash : '/' ∉ ending) :
    IsSegment (name ++ ending) where
  ne_nil := by simp [some]
  noSlash := by simp [h.noSlash, noSlash]
  ne_up := by
    intro same
    rcases List.append_eq_cons_iff.1 same with ⟨none, -⟩ | ⟨rest, rfl, hrest⟩
    · exact h.ne_nil none
    · rcases List.append_eq_singleton_iff.1 hrest.symm with ⟨rfl, -⟩ | ⟨-, none⟩
      · exact h.ne_here rfl
      · exact some none
  ne_here := by
    intro same
    rcases List.append_eq_singleton_iff.1 same with ⟨none, -⟩ | ⟨-, none⟩
    · exact h.ne_nil none
    · exact some none

/-- What is written behind the text of a place belongs to its last name. -/
theorem chars_concat_append (above : Path) (name ending : Name) :
    chars (above ++ [name]) ++ ending = chars (above ++ [name ++ ending]) := by
  rw [chars, chars, List.cons_append]
  congr 1
  cases above with
  | nil => rw [List.nil_append, List.nil_append, List.intercalate_singleton, List.intercalate_singleton]
  | cons first above =>
    simp only [List.cons_append, intercalate_cons, List.flatMap_append, List.flatMap_singleton,
      List.append_assoc]

theorem isPrefix_take_append_iff (p q : Path) (k : Nat) : p <+: p.take k ++ q ↔ p.drop k <+: q := by
  nth_rewrite 1 [← List.take_append_drop k p]
  exact List.prefix_append_right_inj _

theorem not_isPrefix_sibling {above : Path} (some : ending ≠ []) :
    ¬ above ++ [name] <+: above ++ [name ++ ending] := by
  rw [List.prefix_append_right_inj, List.cons_prefix_cons]
  rintro ⟨same, -⟩
  exact some (List.append_right_eq_self.1 same.symm)

end Normal

end Mender.Path
