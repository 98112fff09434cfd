import Mender.Proofs.Number.Doubling
import Mender.Proofs.Retry.Bound

/-! The course of trying again under a policy that asks for a whole number of attempts: which attempt is
the last one, how long the pauses before it are, and what is handed on in the end. -/

namespace Mender.Retry

open Number (Doubled)

variable {σ α : Type} {p : Retry} {label : String} {r : Int} {hr : IsCount (r * stepsPerOne).natAbs}

/-- A whole number of attempts is the bound, unless there is less than one of them. -/
theorem allowed?_whole (whole : p.retries = .finite (r * stepsPerOne) hr) :
    p.allowed? = if r ≤ (2 ^ 53 : Nat) then some (max 1 r).toNat else none := by
  rw [allowed?_finite whole, Number.up_whole]

/-- The attempts that end the course, if it comes to them: the one that makes up the number that the
policy asks for, and every one with an answer after which there is no other. -/
def Ending (r : Int) (answers : Nat → Except Failure α) : Set Nat :=
  {n | 0 < n ∧ (r ≤ (2 ^ 53 : Nat) ∧ (n : Int) = max 1 r ∨ ¬ Passing (answers (n - 1)))}

theorem Tried.isLeast {answers : Nat → Except Failure α} {bound n : Nat} {result : Except Failure α}
    (tried : Tried p label answers bound n result) (asked : r ≤ (2 ^ 53 : Nat) → (bound : Int) = max 1 r)
    (ends : r ≤ (2 ^ 53 : Nat) ∨ ∃ k < bound, ¬ Passing (answers k)) : IsLeast (Ending r answers) n := by
  cases tried with
  | @decided k within before decides =>
    refine ⟨⟨Nat.succ_pos k, .inr decides⟩, ?_⟩
    rintro m ⟨positive, ⟨reached, last⟩ | decides'⟩
    · have := asked reached
      omega
    · by_contra early
      exact decides' (before (m - 1) (by omega))
  | @spent k f last before failed =>
    have reached : r ≤ (2 ^ 53 : Nat) := by
      rcases ends with reached | ⟨k, within, decides⟩
      · exact reached
      · exact absurd (before k within) decides
    have := asked reached
    refine ⟨⟨Nat.succ_pos k, .inl ⟨reached, by omega⟩⟩, ?_⟩
    rintro m ⟨positive, ⟨-, last⟩ | decides⟩
    · omega
    · by_contra early
      exact decides (before (m - 1) (by omega))

section Told

def told (p : Retry) (label : String) (n : Nat) : List Deed := deeds p label (n - 1) ++ [.attempt]

def Deed.length? : Deed → Option Number
  | .pause length => some length
  | _ => none

theorem count_deeds (n : Nat) : (deeds p label n).count .attempt = n := by
  induction n with
  | zero => rfl
  | succ n ih =>
    rw [deeds_succ, List.count_append, ih]
    rfl

theorem pauses_deeds (n : Nat) :
    (deeds p label n).filterMap Deed.length? = (List.range' 1 n).map p.pause := by
  induction n with
  | zero => rfl
  | succ n ih =>
    rw [deeds_succ, List.filterMap_append, ih, List.range'_1_concat, List.map_append, Nat.add_comm 1 n]
    rfl

end Told

/-- A run with `n` attempts, what is done in it and what comes of it. -/
structure Course (p : Retry) (label : String) (pacing : Pacing σ)
    (operation : StateM σ (Except Failure α)) (x : σ) (n : Nat) (outcome : Except Failure α × σ) : Prop where
  /-- Attempt, warning and pause follow one another. -/
  done : outcome.2 = after pacing operation (told p label n) x
  attempts : (told p label n).count .attempt = n
  pauses : (told p label n).filterMap Deed.length? = (List.range' 1 (n - 1)).map p.pause
  /-- The pause after attempt `i` is the base delay, `i` times doubled. -/
  doubling : ∀ i, Doubled i p.baseDelay (p.pause i)
  value : ∀ a, answer p label pacing operation x (n - 1) = .ok a → outcome.1 = .ok a
  refused : ∀ f, answer p label pacing operation x (n - 1) = .error f → f.isFinal = true →
    outcome.1 = .error f
  exhausted : ∀ f, answer p label pacing operation x (n - 1) = .error f → f.isFinal = false →
    ∃ e : Failure, outcome.1 = .error e ∧ e.message =
      "[" ++ label ++ "] Failed after " ++ p.retries.toText ++ " retries: " ++ f.cause

section Course

variable {pacing : Pacing σ} {operation : StateM σ (Except Failure α)} {x : σ}

theorem Course.of_tried {bound m : Nat} {result : Except Failure α}
    (tried : Tried p label (answer p label pacing operation x) bound (m + 1) result) :
    Course p label pacing operation x (m + 1)
      (result, after pacing operation (told p label (m + 1)) x) where
  done := rfl
  attempts := by
    rw [told, List.count_append, count_deeds]
    rfl
  pauses := by
    rw [told, List.filterMap_append, pauses_deeds]
    exact List.append_nil _
  doubling i := Number.doubled_mul p.baseDelay i
  value a h := by
    cases tried with
    | decided => exact h
    | spent _ _ failed => cases failed.symm.trans h
  refused f h final := by
    cases tried with
    | decided => exact h
    | spent last before _ => exact absurd (before m (by omega)) (h ▸ not_passing_error final)
  exhausted f h passing := by
    cases tried with
    | decided _ _ decides => exact absurd ⟨f, h, passing⟩ decides
    | spent _ _ failed =>
      cases failed.symm.trans h
      exact ⟨_, rfl, rfl⟩

/-- A policy that asks for a whole number of attempts ends with the first answer after which there is no
other attempt, and else with the attempt that makes up the number, unless it is past counting. -/
theorem run_ends (whole : p.retries = .finite (r * stepsPerOne) hr) (label : String)
    (pacing : Pacing σ) (operation : StateM σ (Except Failure α)) (x : σ) (horizon : Nat)
    (ends : r ≤ (2 ^ 53 : Nat) ∨ ∃ k < horizon, ¬ Passing (answer p label pacing operation x k)) :
    ∃ n, IsLeast (Ending r (answer p label pacing operation x)) n ∧
      Course p label pacing operation x n ((p.run horizon label pacing operation).run x) := by
  obtain ⟨m, result, made, tried⟩ := run_told p label pacing operation horizon x
  rw [made]
  refine ⟨m + 1, ?_, .of_tried tried⟩
  rcases Int.lt_or_le (2 ^ 53 : Nat) r with past | reached
  · obtain ⟨k, within, decides⟩ := ends.resolve_left (Int.not_le.2 past)
    rw [Retry.attempts, allowed?_whole whole, if_neg (Int.not_le.2 past), Option.getD_none] at tried
    refine tried.isLeast (fun reached => absurd reached (Int.not_le.2 past)) (.inr ⟨k, ?_, decides⟩)
    omega
  · rw [Retry.attempts, allowed?_whole whole, if_pos reached, Option.getD_some] at tried
    exact tried.isLeast (fun _ => by omega) (.inl reached)

end Course

end Mender.Retry

namespace Mender.Noted

open Retry Number

def pacing : Pacing (List Number) := ⟨fun _ => pure (), fun length => modify (· ++ [length])⟩

def operation : StateM (List Number) (Except Failure String) := pure (.error (.reported "no answer"))

theorem after_eq (deeds : List Deed) (notes : List Number) :
    after pacing operation deeds notes = notes ++ deeds.filterMap Deed.length? := by
  induction deeds generalizing notes with
  | nil => exact (List.append_nil notes).symm
  | cons deed deeds ih =>
    rw [after, List.foldl_cons, ← after, ih]
    cases deed with
    | attempt | warning => rfl
    | pause length => exact List.append_assoc notes [length] _

def thrice : Retry := Retry.ofOptions none none

theorem isCount_three : IsCount (3 * (stepsPerOne : Int)).natAbs := isCount_whole (n := 3) (by decide)

/-- Three attempts without an answer, and the pauses between them. -/
theorem three_attempts :
    thrice.retries = .finite (3 * stepsPerOne) isCount_three ∧
      ((3 : Int) ≤ (2 ^ 53 : Nat) ∨ ∃ k < 0, ¬ Passing (answer thrice "operation" pacing operation [] k)) ∧
      ∃ f : Failure, (thrice.run 0 "operation" pacing operation).run [] =
          (.error f, [thrice.pause 1, thrice.pause 2]) ∧
        f.message = "[operation] Failed after 3 retries: no answer" := by
  have whole : thrice.retries = .finite (3 * stepsPerOne) isCount_three := ofInt_eq isCount_three
  have passing (k : Nat) : Passing (answer thrice "operation" pacing operation [] k) := ⟨_, rfl, rfl⟩
  obtain ⟨n, ⟨member, least⟩, course⟩ :=
    run_ends whole "operation" pacing operation [] 0 (.inl (by decide))
  have third : n = 3 := by
    obtain ⟨-, ⟨-, last⟩ | decides⟩ := member
    · omega
    · exact absurd (passing _) decides
  subst third
  obtain ⟨f, hf, message⟩ := course.exhausted _ rfl rfl
  refine ⟨whole, .inl (by decide), f, Prod.ext hf ?_, ?_⟩
  · rw [course.done, after_eq, course.pauses]
    rfl
  · rw [message]
    decide +kernel

def patient : Retry := ⟨.ofNat 1025, 0⟩

def boundless : Retry := ⟨.ofNat (2 ^ 54), 0⟩

theorem pause_of_le {i : Nat} (past : 1024 ≤ i) : patient.pause i = .nan := by
  have zero : patient.baseDelay = .finite 0 (by decide +kernel) := zero_eq
  rw [pause, zero, ofNat_two_pow_of_le past, finite_mul_infinite, if_pos rfl]

/-- No time, doubled too often, is no number. What cannot be counted is no bound. -/
theorem past_doubling :
    ((patient.run 0 "operation" pacing operation).run []).2[1023]? = some .nan ∧
      boundless.allowed? = none := by
  constructor
  · have passing (k : Nat) : Passing (answer patient "operation" pacing operation [] k) := ⟨_, rfl, rfl⟩
    have whole : patient.retries = _ := ofInt_eq (isCount_whole (n := 1025) (by decide))
    have allowed : patient.allowed? = some 1025 := (allowed?_whole whole).trans (if_pos (by decide))
    obtain ⟨m, result, made, tried⟩ := run_told patient "operation" pacing operation 0 []
    obtain ⟨last, -⟩ := tried.eq_of_passing fun k _ => passing k
    rw [Retry.attempts, allowed, Option.getD_some] at last
    obtain rfl : m = 1024 := Nat.succ.inj last
    rw [made, after_eq, List.filterMap_append, pauses_deeds, List.nil_append]
    change ((List.range' 1 1024).map patient.pause ++ [])[1023]? = _
    rw [List.append_nil, List.getElem?_map, List.getElem?_range' (by decide)]
    exact congrArg some (pause_of_le (by decide))
  · have whole : boundless.retries = _ := ofInt_eq (isCount_two_pow (i := 54) (by decide))
    exact (allowed?_whole whole).trans (if_neg (by decide))

end Mender.Noted
