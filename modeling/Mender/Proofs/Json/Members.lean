import Mathlib.Data.List.Basic
import Mathlib.Data.List.Perm.Basic
import Mender.Json.Basic

/-! The members of an object. Where they are put together one after the other and the values of each name
agree, these are the members that were put in; putting them in order loses none, and each is found by its
name. -/

namespace Mender.Json

variable {α : Type} {name : String} {value : α} {m : String × α} {pairs : List (String × α)}

theorem mem_put {members : List (String × α)} (h : m ∈ put name value members) :
    m = (name, value) ∨ m ∈ members := by
  induction members with
  | nil => exact .inl (List.mem_singleton.1 h)
  | cons m' ms ih =>
    rw [put] at h
    split at h
    case isTrue =>
      rcases List.mem_cons.1 h with h | h
      · exact .inl h
      · exact .inr (List.mem_cons_of_mem _ h)
    case isFalse =>
      rcases List.mem_cons.1 h with rfl | h
      · exact .inr List.mem_cons_self
      · exact (ih h).imp_right (List.mem_cons_of_mem _)

theorem mem_put_self (name : String) (value : α) (members : List (String × α)) :
    (name, value) ∈ put name value members := by
  induction members with
  | nil => exact List.mem_cons_self
  | cons m' ms ih =>
    rw [put]
    split
    · exact List.mem_cons_self
    · exact List.mem_cons_of_mem _ ih

theorem mem_put_of_ne {members : List (String × α)} (other : m.1 ≠ name) (h : m ∈ members) :
    m ∈ put name value members := by
  induction members with
  | nil => cases h
  | cons m' ms ih =>
    rw [put]
    split
    case isTrue same =>
      rcases List.mem_cons.1 h with rfl | h
      · exact absurd same other
      · exact List.mem_cons_of_mem _ h
    case isFalse =>
      rcases List.mem_cons.1 h with rfl | h
      · exact List.mem_cons_self
      · exact List.mem_cons_of_mem _ (ih h)

theorem mem_of_mem_foldl_put {members : List (String × α)}
    (h : m ∈ pairs.foldl (fun members pair => put pair.1 pair.2 members) members) :
    m ∈ members ∨ m ∈ pairs := by
  induction pairs generalizing members with
  | nil => exact .inl h
  | cons pair pairs ih =>
    rcases ih h with h | h
    · rcases mem_put h with rfl | h
      · exact .inr List.mem_cons_self
      · exact .inl h
    · exact .inr (List.mem_cons_of_mem _ h)

theorem mem_of_mem_putAll (h : m ∈ putAll pairs) : m ∈ pairs :=
  (mem_of_mem_foldl_put h).resolve_left List.not_mem_nil

theorem mem_foldl_put (alone : ∀ m' ∈ pairs, m'.1 = m.1 → m' = m) {members : List (String × α)}
    (h : m ∈ members ∨ m ∈ pairs) :
    m ∈ pairs.foldl (fun members pair => put pair.1 pair.2 members) members := by
  induction pairs generalizing members with
  | nil => exact h.resolve_right List.not_mem_nil
  | cons pair pairs ih =>
    rw [List.forall_mem_cons] at alone
    refine ih alone.2 ?_
    by_cases same : pair.1 = m.1
    · obtain rfl := alone.1 same
      exact .inl (mem_put_self _ _ _)
    · rcases h with h | h
      · exact .inl (mem_put_of_ne (Ne.symm same) h)
      · refine .inr ((List.mem_cons.1 h).resolve_left ?_)
        rintro rfl
        exact same rfl

theorem mem_putAll (alone : ∀ m' ∈ pairs, m'.1 = m.1 → m' = m) (h : m ∈ pairs) : m ∈ putAll pairs :=
  mem_foldl_put alone (.inr h)

/-- Putting members in order loses none. -/
theorem perm_inOrder (members : List (String × α)) : (inOrder members).Perm members := by
  have parts := List.filter_append_perm (fun m => (index? m.1).isSome) members
  refine .trans ((List.mergeSort_perm _ _).append_right _) (.trans (.of_eq ?_) parts)
  simp [Option.not_isSome]

theorem lookup_eq_some_of_mem {members : List (String × α)} (single : (members.map (·.1)).Nodup)
    (h : (name, value) ∈ members) : members.lookup name = some value := by
  induction members with
  | nil => cases h
  | cons m ms ih =>
    rw [List.map_cons, List.nodup_cons] at single
    rcases List.mem_cons.1 h with rfl | later
    · simp
    · have other : name ≠ m.1 := by
        rintro rfl
        exact single.1 (List.mem_map.2 ⟨_, later, rfl⟩)
      rw [List.lookup_cons, beq_false_of_ne other]
      exact ih single.2 later

def member? (name : String) : Json → Option Json
  | .object members => (members.lookup name).filter fun value => !value.isAbsent
  | _ => none

def names : Json → List String
  | .object members => (members.filter fun member => !member.2.isAbsent).map (·.1)
  | _ => []

def items : Json → List Json
  | .list items => items
  | _ => []

end Mender.Json
