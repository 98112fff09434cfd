import Mender.Proofs.Text.Lines

/-! Putting stretches of lines in the place of single ones moves the lines below. Where a line went can
be told from where the stretches were put and how long they are; and if no stretch moves a line that is
still to be replaced, they might as well have been put in all at once. -/

namespace Mender.Text

variable {α : Type}

structure Edit (α : Type) where
  index : Nat
  pieces : List α
  pieces_ne_nil : pieces ≠ []

/-- The lines after the edits, which are made one after the other. -/
def edited (ls : List α) (es : List (Edit α)) : List α :=
  es.foldl (fun ls e => splice e.index e.pieces ls) ls

/-- Where line `j` goes; nowhere, if it is the one that is replaced. -/
def Edit.moved (e : Edit α) (j : Nat) : Option Nat :=
  if j < e.index then some j
  else if j = e.index then none
  else some (j + e.pieces.length - 1)

def moved (es : List (Edit α)) (j : Nat) : Option Nat := es.foldlM (fun j e => e.moved j) j

theorem moved_cons (e : Edit α) (es : List (Edit α)) (j : Nat) :
    moved (e :: es) j = (e.moved j).bind (moved es) := rfl

theorem getElem?_splice (i j : Nat) (new ls : List α) :
    (splice i new ls)[j]? =
      if j < min i ls.length then ls[j]?
      else if j < min i ls.length + new.length then new[j - min i ls.length]?
      else ls[i + 1 + (j - min i ls.length - new.length)]? := by
  rw [splice, List.getElem?_append, List.length_take]
  split
  case isTrue h => rw [List.getElem?_take, if_pos (by omega)]
  case isFalse h =>
    rw [List.getElem?_append, List.getElem?_drop]
    by_cases h' : j < min i ls.length + new.length
    · rw [if_pos h', if_pos (by omega)]
    · rw [if_neg h', if_neg (by omega)]

/-- If the same lines were put in the same place, what stands around them can be told from the result. -/
theorem getElem?_eq_of_splice_eq {i j : Nat} {new ls ls' : List α} (hlen : ls.length = ls'.length)
    (h : splice i new ls = splice i new ls') (hj : j ≠ i) : ls[j]? = ls'[j]? := by
  obtain ⟨above, rest⟩ := List.append_inj h (by simp [hlen])
  have below := List.append_cancel_left rest
  rcases Nat.lt_or_gt_of_ne hj with hlt | hgt
  · have hat := congrArg (·[j]?) above
    simpa only [List.getElem?_take, if_pos hlt] using hat
  · have hat := congrArg (·[j - (i + 1)]?) below
    simpa only [List.getElem?_drop, Nat.add_sub_cancel' (Nat.succ_le_of_lt hgt)] using hat

theorem getElem?_splice_of_moved {e : Edit α} {j k : Nat} {ls : List α} {a : α}
    (h : e.moved j = some k) (ha : ls[j]? = some a) : (splice e.index e.pieces ls)[k]? = some a := by
  obtain ⟨hj, -⟩ := List.getElem?_eq_some_iff.1 ha
  have hlen := List.length_pos_iff.2 e.pieces_ne_nil
  rw [getElem?_splice]
  unfold Edit.moved at h
  split at h
  case isTrue above =>
    obtain rfl := Option.some.inj h
    rw [if_pos (by omega), ha]
  case isFalse above =>
    split at h
    case isTrue => cases h
    case isFalse below =>
      obtain rfl := Option.some.inj h
      rw [if_neg (by omega), if_neg (by omega), ← ha]
      congr 1
      omega

theorem getElem?_edited_of_moved {es : List (Edit α)} {j k : Nat} {ls : List α} {a : α}
    (h : moved es j = some k) (ha : ls[j]? = some a) : (edited ls es)[k]? = some a := by
  induction es generalizing ls j with
  | nil =>
    obtain rfl := Option.some.inj h
    exact ha
  | cons e es ih =>
    rw [moved_cons, Option.bind_eq_some_iff] at h
    obtain ⟨i, hi, hk⟩ := h
    exact ih hk (getElem?_splice_of_moved hi ha)

/-- The one place where `a` stands, if it stands anywhere. -/
def StandsAt (ls : List α) (a : α) (place? : Option Nat) : Prop :=
  ∀ j, ls[j]? = some a ↔ place? = some j

theorem standsAt_of_count_eq_one [BEq α] [LawfulBEq α] {ls : List α} {a : α} {k : Nat}
    (single : ls.count a = 1) (hk : ls[k]? = some a) : StandsAt ls a (some k) := by
  intro j
  refine ⟨fun hj => ?_, fun hj => Option.some.inj hj ▸ hk⟩
  induction ls generalizing j k with
  | nil => cases single
  | cons b ls ih =>
    by_cases hb : b = a
    · have none : a ∉ ls := by
        rw [← List.count_eq_zero]
        simpa [hb] using single
      cases k with
      | succ k => exact absurd (List.mem_of_getElem? (i := k) hk) none
      | zero =>
        cases j with
        | succ j => exact absurd (List.mem_of_getElem? (i := j) hj) none
        | zero => rfl
    · rw [List.count_cons_of_ne hb] at single
      cases k with
      | zero => exact absurd (Option.some.inj hk) hb
      | succ k =>
        cases j with
        | zero => exact absurd (Option.some.inj hj) hb
        | succ j =>
          cases ih single hk j hj
          rfl

theorem StandsAt.splice {ls : List α} {a : α} {place? : Option Nat} (h : StandsAt ls a place?)
    {e : Edit α} (ha : a ∉ e.pieces) :
    StandsAt (splice e.index e.pieces ls) a (place?.bind e.moved) := by
  intro j
  have hlen := List.length_pos_iff.2 e.pieces_ne_nil
  have hnew (i : Nat) : e.pieces[i]? ≠ some a := fun h => ha (List.mem_of_getElem? h)
  -- `a` is found above the stretch or below it, but not in it
  have hsplice : (Text.splice e.index e.pieces ls)[j]? = some a ↔
      (j < min e.index ls.length ∧ place? = some j) ∨
        (min e.index ls.length + e.pieces.length ≤ j ∧
          place? = some (e.index + 1 + (j - min e.index ls.length - e.pieces.length))) := by
    rw [getElem?_splice]
    split
    case isTrue hj =>
      rw [h j]
      exact ⟨fun hp => .inl ⟨hj, hp⟩, fun hp => hp.elim And.right fun hp => by omega⟩
    case isFalse hj =>
      split
      case isTrue hj' =>
        exact iff_of_false (hnew _) fun hp => hp.elim (fun hp => hj hp.1) fun hp => by omega
      case isFalse hj' =>
        rw [h]
        exact ⟨fun hp => .inr ⟨by omega, hp⟩, fun hp => hp.elim (fun hp => absurd hp.1 hj) And.right⟩
  rw [hsplice]
  cases place? with
  | none => simp
  | some k =>
    obtain ⟨hk, -⟩ := List.getElem?_eq_some_iff.1 ((h k).2 rfl)
    rw [Option.bind_some, Edit.moved]
    split
    case isTrue above => simp only [Option.some.injEq]; omega
    case isFalse above =>
      split
      case isTrue here => simp only [Option.some.injEq, reduceCtorEq, iff_false]; omega
      case isFalse below => simp only [Option.some.injEq]; omega

theorem StandsAt.edited {ls : List α} {a : α} {place? : Option Nat} (h : StandsAt ls a place?)
    {es : List (Edit α)} (ha : ∀ e ∈ es, a ∉ e.pieces) :
    StandsAt (edited ls es) a (place?.bind (moved es)) := by
  induction es generalizing ls place? with
  | nil =>
    rw [show moved ([] : List (Edit α)) = some from rfl, Option.bind_fun_some]
    exact h
  | cons e es ih =>
    rw [List.forall_mem_cons] at ha
    have := ih (h.splice ha.1) ha.2
    rwa [Option.bind_assoc] at this

theorem Edit.moved_le {e : Edit α} {j k : Nat} (h : e.moved j = some k) : j ≤ k := by
  have := List.length_pos_iff.2 e.pieces_ne_nil
  unfold Edit.moved at h
  split at h
  · exact Nat.le_of_eq (Option.some.inj h)
  · split at h
    · cases h
    · obtain rfl := Option.some.inj h
      omega

theorem moved_le {es : List (Edit α)} {j k : Nat} (h : moved es j = some k) : j ≤ k := by
  induction es generalizing j with
  | nil => exact Nat.le_of_eq (Option.some.inj h)
  | cons e es ih =>
    rw [moved_cons, Option.bind_eq_some_iff] at h
    obtain ⟨i, hi, hk⟩ := h
    exact Nat.le_trans (Edit.moved_le hi) (ih hk)

theorem Edit.moved_eq_self_iff (e : Edit α) (j : Nat) :
    e.moved j = some j ↔ j < e.index ∨ (e.index < j ∧ e.pieces.length = 1) := by
  have := List.length_pos_iff.2 e.pieces_ne_nil
  unfold Edit.moved
  split
  · simp [*]
  · split
    · simp [*]
    · simp only [Option.some.injEq]
      omega

/-- A line stays where it is if everything that is put in above it takes the place of one line. -/
theorem moved_eq_self_iff (es : List (Edit α)) (j : Nat) :
    moved es j = some j ↔ ∀ e ∈ es, j < e.index ∨ (e.index < j ∧ e.pieces.length = 1) := by
  induction es with
  | nil => simp [moved]
  | cons e es ih =>
    rw [moved_cons, List.forall_mem_cons, ← ih, ← Edit.moved_eq_self_iff]
    constructor
    · intro h
      obtain ⟨i, hi, hj⟩ := Option.bind_eq_some_iff.1 h
      obtain rfl := Nat.le_antisymm (Edit.moved_le hi) (moved_le hj)
      exact ⟨hi, hj⟩
    · rintro ⟨hi, hj⟩
      rw [hi, Option.bind_some, hj]

section AtOnce

def insteadOf (es : List (Edit α)) (i : Nat) (l : α) : List α :=
  ((es.find? (·.index = i)).map Edit.pieces).getD [l]

/-- The lines after the edits, which are all made to the lines as they were. -/
def editedAtOnce (ls : List α) (es : List (Edit α)) : List α := (ls.mapIdx (insteadOf es)).flatten

/-- An edit that comes after another one finds its line where it was: above that of the other one, or
anywhere if the other one put in a single line. -/
def Edit.Before (e e' : Edit α) : Prop :=
  e'.index < e.index ∨ (e'.index ≠ e.index ∧ e.pieces.length = 1)

variable {e : Edit α} {es : List (Edit α)} {i : Nat}

theorem insteadOf_cons_self (e : Edit α) (es : List (Edit α)) (l : α) :
    insteadOf (e :: es) e.index l = e.pieces := by
  simp [insteadOf]

theorem insteadOf_cons_of_ne (h : i ≠ e.index) (es : List (Edit α)) (l : α) :
    insteadOf (e :: es) i l = insteadOf es i l := by
  simp [insteadOf, Ne.symm h]

theorem insteadOf_of_forall_ne (h : ∀ e ∈ es, e.index ≠ i) (l : α) : insteadOf es i l = [l] := by
  have none : es.find? (·.index = i) = none := by
    simpa using h
  rw [insteadOf, none]
  rfl

theorem flatten_mapIdx_eq_self {f : Nat → α → List α} {ls : List α}
    (h : ∀ i, i < ls.length → ∀ l, f i l = [l]) : (ls.mapIdx f).flatten = ls := by
  induction ls generalizing f with
  | nil => rfl
  | cons l ls ih =>
    rw [List.mapIdx_cons, List.flatten_cons, h 0 (Nat.zero_lt_succ _), ih]
    · rfl
    · intro i hi
      exact h (i + 1) (Nat.succ_lt_succ hi)

theorem length_splice (new : List α) {ls : List α} (h : i < ls.length) :
    (splice i new ls).length + 1 = ls.length + new.length := by
  rw [splice, List.length_append, List.length_append, List.length_take_of_le (Nat.le_of_lt h),
    List.length_drop]
  omega

/-- A line that was there before an edit is there after it. -/
theorem Edit.Before.lt_length {e' : Edit α} (h : e.Before e') {ls : List α} (he : e.index < ls.length)
    (he' : e'.index < ls.length) : e'.index < (splice e.index e.pieces ls).length := by
  have := length_splice e.pieces he
  have := List.length_pos_iff.2 e.pieces_ne_nil
  rcases h with above | ⟨-, one⟩
  · omega
  · omega

/-- Making one edit first is the same if it leaves the lines of the others where they were. -/
theorem editedAtOnce_splice (after : ∀ e' ∈ es, e.Before e') {ls : List α} (h : e.index < ls.length) :
    editedAtOnce (splice e.index e.pieces ls) es = editedAtOnce ls (e :: es) := by
  have length : (ls.take e.index).length = e.index := List.length_take_of_le (Nat.le_of_lt h)
  have split : ls = ls.take e.index ++ (ls[e.index] :: ls.drop (e.index + 1)) := by simp
  have above : (ls.take e.index).mapIdx (insteadOf es) =
      (ls.take e.index).mapIdx (insteadOf (e :: es)) := by
    refine List.mapIdx_eq_mapIdx_iff.2 fun j hj => ?_
    rw [length] at hj
    rw [insteadOf_cons_of_ne (Nat.ne_of_lt hj)]
  have inside : (e.pieces.mapIdx fun j => insteadOf es (j + e.index)).flatten = e.pieces := by
    refine flatten_mapIdx_eq_self fun j hj l => insteadOf_of_forall_ne (fun e' he' => ?_) l
    have := after e' he'
    unfold Edit.Before at this
    omega
  have below : ((ls.drop (e.index + 1)).mapIdx fun j => insteadOf es (j + e.pieces.length + e.index)) =
      (ls.drop (e.index + 1)).mapIdx fun j => insteadOf (e :: es) (j + 1 + e.index) := by
    refine List.mapIdx_eq_mapIdx_iff.2 fun j _ => ?_
    rw [insteadOf_cons_of_ne (by omega)]
    by_cases one : e.pieces.length = 1
    · rw [one]
    · have lower (k : Nat) (hk : e.index ≤ k) : ∀ e' ∈ es, e'.index ≠ k := by
        intro e' he'
        have := after e' he'
        unfold Edit.Before at this
        omega
      rw [insteadOf_of_forall_ne (lower _ (by omega)), insteadOf_of_forall_ne (lower _ (by omega))]
  have whole : editedAtOnce ls (e :: es) = editedAtOnce (ls.take e.index ++
      (ls[e.index] :: ls.drop (e.index + 1))) (e :: es) := by rw [← split]
  rw [whole, editedAtOnce, editedAtOnce, splice, List.mapIdx_append, List.mapIdx_append,
    List.mapIdx_append, length, above, List.mapIdx_cons]
  simp only [List.flatten_append, List.flatten_cons, inside, Nat.zero_add, insteadOf_cons_self,
    Nat.add_assoc] at below ⊢
  rw [below]

/-- Edits that are made one after the other come to the same as all at once, if each finds its line where
it was. -/
theorem edited_eq_editedAtOnce {ls : List α} (order : es.Pairwise Edit.Before)
    (h : ∀ e ∈ es, e.index < ls.length) : edited ls es = editedAtOnce ls es := by
  induction es generalizing ls with
  | nil =>
    exact (flatten_mapIdx_eq_self fun i _ l => insteadOf_of_forall_ne (by simp) l).symm
  | cons e es ih =>
    rw [List.pairwise_cons] at order
    rw [List.forall_mem_cons] at h
    have there : ∀ e' ∈ es, e'.index < (splice e.index e.pieces ls).length :=
      fun e' he' => (order.1 e' he').lt_length h.1 (h.2 e' he')
    rw [← editedAtOnce_splice order.1 h.1, ← ih order.2 there]
    rfl

end AtOnce

end Mender.Text
