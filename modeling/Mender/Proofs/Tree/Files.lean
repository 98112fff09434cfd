import Mathlib.Data.List.TakeWhile
import Mender.Tree.Basic

/-! What reading finds in a tree, and what a write does to it: it changes what stands at the one place
it names, and nothing else. A new file is put only where a directory is already, so that no place
above it changes either. -/

namespace Mender.Tree

open Mender.Text

theorem readText_eq_ok_iff {t : Tree} {p : Path} {s : List Char} :
    t.readText p = .ok s ↔
      ∃ f, t.node? p = some (.file f) ∧ f.readable = true ∧ decode f.bytes = s := by
  unfold readText read
  split
  case h_1 f hf =>
    by_cases hr : f.readable = true
    · simp [hf, hr, Except.map]
    · simp [hf, hr, Except.map]
  case h_2 hd => simp [hd, Except.map]
  case h_3 hn => simp [hn, Except.map]

theorem writeText_file {t : Tree} {p : Path} {f : File} (h : t.node? p = some (.file f))
    (s : List Char) :
    t.writeText p s =
      if f.writable then .ok (t.set p (.file { f with bytes := encode s })) else .error .denied := by
  simp only [writeText, write, h]

theorem lookup_cons_eq (p q : Path) (node : Node) (es : List (Path × Node)) :
    ((p, node) :: es).lookup q = if q = p then some node else es.lookup q := by
  rw [List.lookup_cons]
  split
  case h_1 h => rw [if_pos (eq_of_beq h)]
  case h_2 h => rw [if_neg (ne_of_beq_false h)]

theorem lookup_setIn (p q : Path) (node : Node) (es : List (Path × Node)) :
    (setIn p node es).lookup q = if q = p then some node else es.lookup q := by
  induction es with
  | nil => rw [setIn, lookup_cons_eq]
  | cons e es ih =>
    obtain ⟨r, n⟩ := e
    by_cases hr : r = p
    · subst hr
      by_cases hq : q = r <;> simp [setIn, lookup_cons_eq, hq]
    · by_cases hq : q = p
      · subst hq
        simp [setIn, hr, lookup_cons_eq, ih, Ne.symm hr]
      · simp [setIn, hr, lookup_cons_eq, ih, hq]

theorem any_setIn (p : Path) (node : Node) (q : Path) (es : List (Path × Node)) :
    (setIn p node es).any (fun e => q.isPrefixOf e.1) =
      (es.any (fun e => q.isPrefixOf e.1) || q.isPrefixOf p) := by
  induction es with
  | nil => simp [setIn]
  | cons e es ih =>
    by_cases he : e.1 = p
    · simp [setIn, he, Bool.or_comm]
    · simp [setIn, he, ih, Bool.or_assoc]

theorem node?_set_self (t : Tree) (p : Path) (node : Node) : (t.set p node).node? p = some node := by
  simp [node?, set, lookup_setIn]

theorem setIn_setIn (p : Path) (m n : Node) (es : List (Path × Node)) :
    setIn p n (setIn p m es) = setIn p n es := by
  induction es with
  | nil => simp [setIn]
  | cons e es ih => by_cases he : e.1 = p <;> simp [setIn, he, ih]

theorem set_set (t : Tree) (p : Path) (m n : Node) : (t.set p m).set p n = t.set p n :=
  congrArg Tree.mk (setIn_setIn p m n t.entries)

/-- Nodes at two places are set in any order, if one of the places has an entry already. -/
theorem setIn_comm {p q : Path} (hne : p ≠ q) (m n : Node) {es : List (Path × Node)}
    (hp : (es.lookup p).isSome) : setIn q n (setIn p m es) = setIn p m (setIn q n es) := by
  induction es with
  | nil => cases hp
  | cons e es ih =>
    obtain ⟨r, node⟩ := e
    by_cases hrp : r = p
    · subst hrp
      simp [setIn, hne]
    · by_cases hrq : r = q
      · subst hrq
        simp [setIn, hrp]
      · rw [lookup_cons_eq, if_neg (Ne.symm hrp)] at hp
        simp [setIn, hrp, hrq, ih hp]

/-- Beside the place itself, only places above it can be affected: they become directories. -/
theorem node?_set_of_ne {t : Tree} {p q : Path} {node : Node} (hne : q ≠ p)
    (h : q <+: p → t.exists? q = true) : (t.set p node).node? q = t.node? q := by
  simp only [node?, set, lookup_setIn, if_neg hne, any_setIn]
  by_cases hq : q <+: p
  · have := h hq
    simp only [exists?, node?] at this
    cases hl : t.entries.lookup q with
    | some n => rfl
    | none =>
      simp only [hl] at this
      split at this
      case isTrue hd =>
        simp only [Bool.or_eq_true, decide_eq_true_eq] at hd
        rcases hd with hd | hd <;> simp [hd]
      case isFalse => exact absurd this (by simp)
  · have : q.isPrefixOf p = false := by
      rw [← Bool.not_eq_true, List.isPrefixOf_iff_prefix]
      exact hq
    simp only [this, Bool.or_false]

theorem lookup_of_node?_file {t : Tree} {p : Path} {f : File} (h : t.node? p = some (.file f)) :
    t.entries.lookup p = some (.file f) := by
  unfold node? at h
  split at h
  case h_1 n hl => rw [hl, h]
  case h_2 => split at h <;> simp at h

theorem set_comm_of_file {t : Tree} {p q : Path} {f : File} (h : t.node? p = some (.file f)) (hne : p ≠ q)
    (m n : Node) : (t.set p m).set q n = (t.set q n).set p m :=
  congrArg Tree.mk (setIn_comm hne m n (by rw [lookup_of_node?_file h]; rfl))

theorem exists?_of_prefix_file {t : Tree} {p q : Path} {f : File} (h : t.node? p = some (.file f))
    (hq : q <+: p) : t.exists? q = true := by
  obtain ⟨before, after, he, -⟩ := List.lookup_eq_some_iff.1 (lookup_of_node?_file h)
  have hany : t.entries.any (fun e => q.isPrefixOf e.1) = true :=
    List.any_eq_true.2 ⟨(p, .file f), by simp [he], List.isPrefixOf_iff_prefix.2 hq⟩
  simp only [exists?, node?]
  cases t.entries.lookup q <;> simp [hany]

/-- A file that is there keeps its place in the tree when its bytes are replaced. -/
theorem node?_set_file {t : Tree} {p : Path} {f g : File} (h : t.node? p = some (.file f)) (q : Path) :
    (t.set p (.file g)).node? q = if q = p then some (.file g) else t.node? q := by
  split
  case isTrue hq => rw [hq, node?_set_self]
  case isFalse hq => exact node?_set_of_ne hq (exists?_of_prefix_file h)

theorem exists?_of_lt_known {t : Tree} {p : Path} {n : Nat} (h : n < t.known p) :
    t.exists? (p.take (n + 1)) = true := by
  have first := List.takeWhile_prefix (l := List.range p.length) fun n => t.exists? (p.take (n + 1))
  have hn := first.getElem h
  have := List.mem_takeWhile_imp (List.getElem_mem h)
  rwa [hn, List.getElem_range] at this

/-- Where something new can be put, all places above are there. -/
theorem exists?_of_obstruction? {t : Tree} {p q : Path} (h : t.obstruction? p = none) (hq : q <+: p)
    (hne : q ≠ p) : t.exists? q = true := by
  have hlen : ¬ t.known p + 1 < p.length := by
    grind [obstruction?]
  cases q with
  | nil =>
    unfold exists? node?
    split <;> simp
  | cons a q =>
    have hlt : (a :: q).length < p.length :=
      Nat.lt_of_le_of_ne hq.length_le fun he => hne (hq.eq_of_length he)
    have := exists?_of_lt_known (t := t) (p := p) (n := q.length) (by simp at hlt; omega)
    rwa [show p.take (q.length + 1) = a :: q from (List.prefix_iff_eq_take.1 hq).symm] at this

theorem node?_write_of_ne {t t' : Tree} {p q : Path} {bytes : List UInt8}
    (h : t.write p bytes = .ok t') (hne : q ≠ p) : t'.node? q = t.node? q := by
  unfold write at h
  split at h
  case h_1 f hf =>
    split at h
    case isTrue =>
      obtain rfl := Except.ok.inj h
      rw [node?_set_file hf, if_neg hne]
    case isFalse => cases h
  case h_2 => cases h
  case h_3 =>
    split at h
    case h_1 => cases h
    case h_2 hnone =>
      obtain rfl := Except.ok.inj h
      exact node?_set_of_ne hne fun hq => exists?_of_obstruction? hnone hq hne

end Mender.Tree
