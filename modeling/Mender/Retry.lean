import Mender.World

/-! Trying again. An operation that fails is tried as often as its policy allows, with a pause before
each new attempt that is twice as long as the last one; a final failure is handed on at once. -/

namespace Mender

/-- How often to try, and the delay from which the pauses double. -/
structure Retry where
  retries : Number
  baseDelay : Number
  deriving DecidableEq

structure Pacing (σ : Type) where
  warn : String → StateM σ Unit
  sleep : Number → StateM σ Unit

def World.pacing : Pacing World := ⟨World.sayDebug .warn, World.sleep⟩

namespace Retry

/-- Three attempts, and pauses that double from one second. -/
def ofOptions (retries? baseDelay? : Option Number) : Retry :=
  ⟨retries?.getD (.ofNat 3), baseDelay?.getD (.ofNat 1000)⟩

/-- How many attempts there may be, if that is bounded; at least one. Attempts are counted one by one,
which stands still at 2^53, so a policy that asks for more of them sets no bound. -/
def allowed? (p : Retry) : Option Nat :=
  match p.retries.ceil.toNat? with
  | some n => if n ≤ 2 ^ 53 then some (max 1 n) else none
  | none => if p.retries.isNegative then some 1 else none

/-- How many attempts there may be. A policy without a bound stops at `horizon`. -/
def attempts (p : Retry) (horizon : Nat) : Nat := p.allowed?.getD (max 1 horizon)

def pause (p : Retry) (n : Nat) : Number := p.baseDelay * .ofNat (2 ^ n)

def warning (label : String) (n : Nat) (pause : Number) : String :=
  "[" ++ label ++ "] Attempt " ++ toString n ++ " failed. Retrying in " ++ pause.toText ++ "ms..."

variable {σ α : Type}

/-- Attempt `n`, with `left` more attempts after it. -/
def attempt (p : Retry) (label : String) (pacing : Pacing σ)
    (operation : StateM σ (Except Failure α)) : (n left : Nat) → StateM σ (Except Failure α)
  | n, left => do
    match ← operation with
    | .ok a => return .ok a
    | .error f =>
      if f.isFinal then return .error f
      match left with
      | 0 => return .error (.exhausted label p.retries f.cause)
      | left + 1 => do
        pacing.warn (warning label n (p.pause n))
        pacing.sleep (p.pause n)
        attempt p label pacing operation (n + 1) left
termination_by structural _ left => left

/-- The value of the first attempt that has one, or the failure that ends the attempts. -/
def run (p : Retry) (horizon : Nat) (label : String) (pacing : Pacing σ)
    (operation : StateM σ (Except Failure α)) : StateM σ (Except Failure α) :=
  attempt p label pacing operation 1 (p.attempts horizon - 1)

end Retry
end Mender
