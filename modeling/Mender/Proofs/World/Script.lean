import Mathlib.Logic.Function.Iterate
import Mender.World

/-! The answers of a script by their number. The last one is given for ever after. -/

namespace Mender.Script

variable {α : Type}

def skip (n : Nat) (s : Script α) : Script α := (fun s : Script α => s.take.2)^[n] s

def nth (s : Script α) (n : Nat) : α := (s.skip n).take.1

theorem skip_succ (n : Nat) (s : Script α) : s.skip (n + 1) = (s.skip n).take.2 :=
  Function.iterate_succ_apply' _ n s

theorem skip_add (m n : Nat) (s : Script α) : s.skip (m + n) = (s.skip m).skip n := by
  rw [Nat.add_comm]
  exact Function.iterate_add_apply _ n m s

theorem take_of_length_le {s : Script α} (h : s.items.length ≤ 1) : s.take.2 = s := by
  obtain ⟨fallback, items⟩ := s
  cases items with
  | nil => rfl
  | cons a items =>
    obtain rfl := List.eq_nil_of_length_eq_zero (Nat.le_zero.1 (Nat.le_of_succ_le_succ h))
    rfl

theorem length_items_take (s : Script α) : s.take.2.items.length ≤ max 1 (s.items.length - 1) := by
  obtain ⟨fallback, items⟩ := s
  match items with
  | [] => exact Nat.zero_le _
  | [_] => exact Nat.le_refl _
  | _ :: _ :: _ => exact Nat.le_max_right _ _

theorem length_items_skip (s : Script α) (n : Nat) :
    (s.skip n).items.length ≤ max 1 (s.items.length - n) := by
  induction n with
  | zero => exact Nat.le_max_right _ _
  | succ n ih =>
    have := length_items_take (s.skip n)
    rw [skip_succ]
    omega

theorem nth_succ_of_length_le {s : Script α} {n : Nat} (h : s.items.length ≤ n + 1) :
    s.nth (n + 1) = s.nth n := by
  have := s.length_items_skip n
  rw [nth, skip_succ, take_of_length_le (by omega), nth]

example : (Script.mk 0 [7, 8, 9]).nth 1 = 8 ∧ (Script.mk 0 [7, 8, 9]).nth 5 = 9 := by decide

end Mender.Script
