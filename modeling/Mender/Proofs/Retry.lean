import Mender.Proofs.Steps
import Mender.Retry

/-! What comes of trying again. The attempts end with the first answer that cannot be tried again, and
else when there may be no more of them. -/

namespace Mender.Retry

variable {σ α : Type} {p : Retry} {label : String} {pacing : Pacing σ}
  {operation : StateM σ (Except Failure α)}

section Agreed

variable {τ : Type} {R : σ → τ → Prop} {pacing' : Pacing τ} {operation' : StateM τ (Except Failure α)}

/-- Two operations that cannot be told apart are tried again alike. -/
theorem agree_run (ho : Agree R operation operation') (hw : ∀ s, Agree R (pacing.warn s) (pacing'.warn s))
    (hs : ∀ d, Agree R (pacing.sleep d) (pacing'.sleep d)) (horizon : Nat) (label : String) :
    Agree R (p.run horizon label pacing operation) (p.run horizon label pacing' operation') := by
  have attempts (n left : Nat) : Agree R (attempt p label pacing operation n left)
      (attempt p label pacing' operation' n left) := by
    induction left generalizing n with
    | zero =>
      rw [attempt, attempt]
      refine ho.bind fun answer => ?_
      cases answer with
      | ok a => exact agree_pure _
      | error f => exact (agree_pure _).ite (agree_pure _)
    | succ left ih =>
      rw [attempt, attempt]
      refine ho.bind fun answer => ?_
      cases answer with
      | ok a => exact agree_pure _
      | error f => exact (agree_pure _).ite ((hw _).bind fun _ => (hs _).bind fun _ => ih _)
  exact attempts 1 _

end Agreed

theorem allowed?_pos {p : Retry} {n : Nat} (h : p.allowed? = some n) : 0 < n := by
  revert h
  fun_cases allowed? p <;> rintro ⟨⟩
  · exact Nat.le_max_left 1 _
  · exact Nat.one_pos

theorem attempts_pos (p : Retry) (horizon : Nat) : 0 < p.attempts horizon := by
  rw [attempts]
  cases h : p.allowed? with
  | some n => exact allowed?_pos h
  | none => exact Nat.le_max_left 1 horizon

/-- A failure after which it may be tried again. -/
def Passing (answer : Except Failure α) : Prop := ∃ f, answer = .error f ∧ f.isFinal = false

theorem not_passing_ok (a : α) : ¬ Passing (.ok a : Except Failure α) := by
  rintro ⟨f, h, -⟩
  cases h

theorem not_passing_error {f : Failure} (final : f.isFinal = true) :
    ¬ Passing (.error f : Except Failure α) := by
  rintro ⟨f', h, passing⟩
  cases h
  rw [final] at passing
  cases passing

/-- What comes of attempts that are answered like this, if there may be `bound` of them: how many are
made, and what is handed on. -/
inductive Tried (p : Retry) (label : String) (answers : Nat → Except Failure α) (bound : Nat) :
    Nat → Except Failure α → Prop where
  | decided {n : Nat} (within : n < bound) (before : ∀ i < n, Passing (answers i))
      (decides : ¬ Passing (answers n)) : Tried p label answers bound (n + 1) (answers n)
  | spent {n : Nat} {f : Failure} (last : n + 1 = bound) (before : ∀ i < bound, Passing (answers i))
      (failed : answers n = .error f) :
      Tried p label answers bound (n + 1) (.error (.exhausted label p.retries f.cause))

namespace Tried

variable {answers : Nat → Except Failure α} {bound m n : Nat} {result : Except Failure α}

/-- The first answer that decides is the last one, if there may be so many. -/
theorem eq_of_decides (h : Tried p label answers bound m result) (within : n < bound)
    (before : ∀ i < n, Passing (answers i)) (decides : ¬ Passing (answers n)) :
    m = n + 1 ∧ result = answers n := by
  cases h with
  | @decided k _ before' decides' =>
    have same : k = n := by
      rcases Nat.lt_trichotomy k n with h | h | h
      · exact absurd (before k h) decides'
      · exact h
      · exact absurd (before' n h) decides
    subst same
    exact ⟨rfl, rfl⟩
  | spent _ before' _ => exact absurd (before' n within) decides

/-- If no answer decides, all attempts are made that there may be. -/
theorem eq_of_passing (h : Tried p label answers bound m result)
    (passing : ∀ i < bound, Passing (answers i)) :
    m = bound ∧ ∃ f : Failure, result = .error (.exhausted label p.retries f.cause) := by
  cases h with
  | decided within _ decides => exact absurd (passing _ within) decides
  | spent last _ _ => exact ⟨last, _, rfl⟩

end Tried

section Attempt

variable {n left : Nat} {x x' : σ} {f : Failure}

/-- An answer that decides is handed on as it is. -/
theorem run_attempt_of_not_passing (h : ¬ Passing (operation.run x).1) :
    (attempt p label pacing operation n left).run x = operation.run x := by
  rcases hr : operation.run x with ⟨answer, x'⟩
  rw [hr] at h
  cases answer with
  | ok a => cases left <;> rw [attempt, StateT.run_bind, hr] <;> rfl
  | error f =>
    have final : f.isFinal = true := eq_true_of_ne_false fun passing => h ⟨f, rfl, passing⟩
    cases left <;> rw [attempt, StateT.run_bind, hr]
    all_goals
      change StateT.run (if f.isFinal = true then _ else _) x' = _
      rw [if_pos final]
      rfl

theorem run_attempt_zero (h : operation.run x = (.error f, x')) (passing : f.isFinal = false) :
    (attempt p label pacing operation n 0).run x = (.error (.exhausted label p.retries f.cause), x') := by
  rw [attempt, StateT.run_bind, h]
  change StateT.run (if f.isFinal = true then _ else _) x' = _
  rw [if_neg (by rw [passing]; exact Bool.false_ne_true)]
  rfl

theorem run_attempt_succ (h : operation.run x = (.error f, x')) (passing : f.isFinal = false) :
    (attempt p label pacing operation n (left + 1)).run x =
      (attempt p label pacing operation (n + 1) left).run
        ((pacing.sleep (p.pause n)).run ((pacing.warn (warning label n (p.pause n))).run x').2).2 := by
  rw [attempt, StateT.run_bind, h]
  change StateT.run (if f.isFinal = true then _ else _) x' = _
  rw [if_neg (by rw [passing]; exact Bool.false_ne_true)]
  rfl

end Attempt

inductive Deed where
  | attempt
  | warning (text : String)
  | pause (length : Number)
  deriving DecidableEq

def Deed.act (pacing : Pacing σ) (operation : StateM σ (Except Failure α)) : Deed → σ → σ
  | .attempt, x => (operation.run x).2
  | .warning text, x => ((pacing.warn text).run x).2
  | .pause length, x => ((pacing.sleep length).run x).2

def after (pacing : Pacing σ) (operation : StateM σ (Except Failure α)) (deeds : List Deed) (x : σ) : σ :=
  deeds.foldl (fun x deed => deed.act pacing operation x) x

def turn (p : Retry) (label : String) (n : Nat) : List Deed :=
  [.attempt, .warning (warning label n (p.pause n)), .pause (p.pause n)]

def deeds (p : Retry) (label : String) (n : Nat) : List Deed :=
  (List.range' 1 n).flatMap (turn p label)

def answer (p : Retry) (label : String) (pacing : Pacing σ) (operation : StateM σ (Except Failure α))
    (x : σ) (n : Nat) : Except Failure α :=
  (operation.run (after pacing operation (deeds p label n) x)).1

section After

variable (pacing operation)

theorem after_append (before later : List Deed) (x : σ) :
    after pacing operation (before ++ later) x =
      after pacing operation later (after pacing operation before x) := List.foldl_append

theorem deeds_succ (n : Nat) : deeds p label (n + 1) = deeds p label n ++ turn p label (n + 1) := by
  rw [deeds, List.range'_1_concat, List.flatMap_append, List.flatMap_singleton, Nat.add_comm 1 n]
  rfl

/-- A state that each attempt leads on by one is led on by them alone. -/
theorem staged_after {Stage : Nat → σ → Prop}
    (answered : ∀ n x, Stage n x → Stage (n + 1) (operation.run x).2)
    (warned : ∀ n s, Keeps (Stage n) (pacing.warn s)) (slept : ∀ n d, Keeps (Stage n) (pacing.sleep d))
    {x : σ} (hx : Stage 0 x) (n : Nat) : Stage n (after pacing operation (deeds p label n) x) := by
  induction n with
  | zero => exact hx
  | succ n ih =>
    rw [deeds_succ, after_append]
    exact slept _ _ _ (warned _ _ _ (answered n _ ih))

end After

section Run

variable {n left bound : Nat} {x : σ}

theorem tried_attempt (last : n + 1 + left = bound)
    (before : ∀ i < n, Passing (answer p label pacing operation x i)) :
    ∃ m result, (attempt p label pacing operation (n + 1) left).run
        (after pacing operation (deeds p label n) x) =
          (result, after pacing operation (deeds p label m ++ [.attempt]) x) ∧
      Tried p label (answer p label pacing operation x) bound (m + 1) result := by
  induction left generalizing n with
  | zero =>
    by_cases h : Passing (answer p label pacing operation x n)
    · have before := Nat.forall_lt_succ_right.2 ⟨before, h⟩
      obtain ⟨f, hf, passing⟩ := h
      refine ⟨n, _, ?_, .spent last (last ▸ before) hf⟩
      rw [run_attempt_zero (Prod.ext hf rfl) passing, after_append]
      rfl
    · refine ⟨n, _, ?_, .decided (by omega) before h⟩
      rw [run_attempt_of_not_passing h, after_append]
      rfl
  | succ left ih =>
    by_cases h : Passing (answer p label pacing operation x n)
    · have before := Nat.forall_lt_succ_right.2 ⟨before, h⟩
      obtain ⟨f, hf, passing⟩ := h
      have next := ih (n := n + 1) (by omega) before
      rw [deeds_succ, after_append] at next
      rw [run_attempt_succ (Prod.ext hf rfl) passing]
      exact next
    · refine ⟨n, _, ?_, .decided (by omega) before h⟩
      rw [run_attempt_of_not_passing h, after_append]
      rfl

variable (p label pacing operation)

theorem run_told (horizon : Nat) (x : σ) :
    ∃ m result, (p.run horizon label pacing operation).run x =
        (result, after pacing operation (deeds p label m ++ [.attempt]) x) ∧
      Tried p label (answer p label pacing operation x) (p.attempts horizon) (m + 1) result := by
  refine tried_attempt (n := 0) ?_ (by simp)
  have := p.attempts_pos horizon
  omega

end Run

theorem tried_run {Stage : Nat → σ → Prop} {answers : Nat → Except Failure α}
    (answered : ∀ n x, Stage n x → (operation.run x).1 = answers n ∧ Stage (n + 1) (operation.run x).2)
    (warned : ∀ n s, Keeps (Stage n) (pacing.warn s)) (slept : ∀ n d, Keeps (Stage n) (pacing.sleep d))
    (horizon : Nat) {x : σ} (hx : Stage 0 x) :
    ∃ m, Tried p label answers (p.attempts horizon) m ((p.run horizon label pacing operation).run x).1 ∧
      Stage m ((p.run horizon label pacing operation).run x).2 := by
  have staged (n : Nat) : Stage n (after pacing operation (deeds p label n) x) :=
    staged_after pacing operation (fun n x h => (answered n x h).2) warned slept hx n
  have same : answer p label pacing operation x = answers := funext fun n => (answered n _ (staged n)).1
  obtain ⟨m, result, told, tried⟩ := run_told p label pacing operation horizon x
  rw [told]
  refine ⟨m + 1, same ▸ tried, ?_⟩
  rw [after_append]
  exact (answered m _ (staged m)).2

end Mender.Retry
