import Mender.Proofs.Session.Status
import Mender.Proofs.World.Alike

/-! What a larger budget of iterations does to a session. The budget is looked at in two places: where a
session says which of how many iterations it begins, and where it gives up. So as long as nothing that was
said is heard by anyone, a session with more of them does the same, and only goes on where the other one
gives up. -/

namespace Mender

variable {σ : Type}

/-- To a crew, states that are related are the same, and so is a state after something was said. -/
structure Crew.DeafUpTo (crew : Crew σ) (R : σ → σ → Prop) : Prop where
  equivalence : Equivalence R
  agrees : crew.Agrees R crew
  unheard : ∀ channel text x, R ((crew.say channel text).run x).2 x

/-- The crew does not hear what a session says: no answer depends on it. -/
def Crew.Deaf (crew : Crew σ) : Prop := ∃ R, crew.DeafUpTo R

/-- A crew that works on the world itself is deaf: no one reads the console. -/
theorem Crew.deaf_ofWorld (analyzer : Analyzer) (oracle : Oracle) (root : Path) :
    (Crew.ofWorld analyzer oracle root).Deaf :=
  ⟨World.Twins, World.equivalence_twins, Crew.agrees_ofWorld analyzer oracle root, fun _ _ x =>
    (World.twins_refl x).told _ _⟩

theorem Crew.deaf_of_silent {crew : Crew σ}
    (silent : ∀ channel text x, ((crew.say channel text).run x).2 = x) : crew.Deaf := by
  have same {α : Type} (act : StateM σ α) : Agree Eq act act := by
    rintro x _ rfl
    exact ⟨rfl, rfl⟩
  refine ⟨Eq, ⟨fun _ => rfl, Eq.symm, Eq.trans⟩, ?_, silent⟩
  constructor <;> intros <;> exact same _

section Deaf

variable {crew : Crew σ} {R : σ → σ → Prop}

/-- Histories with the same exchanges, which lead to related states. -/
def SameTale (R : σ → σ → Prop) (xh yh : Recorded σ) : Prop :=
  R xh.1 yh.1 ∧ xh.2.map Moment.exchange = yh.2.map Moment.exchange

theorem equivalence_sameTale (h : Equivalence R) : Equivalence (SameTale R) where
  refl xh := ⟨h.refl xh.1, rfl⟩
  symm same := ⟨h.symm same.1, same.2.symm⟩
  trans same same' := ⟨h.trans same.1 same'.1, same.2.trans same'.2⟩

theorem Agree.recording {α : Type} {act : StateM σ α} (h : Agree R act act) (tell : α → Exchange) :
    Agree (SameTale R) (recording tell act) (recording tell act) := by
  rintro ⟨x, hist⟩ ⟨y, hist'⟩ ⟨hxy, same⟩
  obtain ⟨answer, after⟩ := h x y hxy
  refine ⟨answer, after, ?_⟩
  change (hist ++ [_]).map Moment.exchange = (hist' ++ [_]).map Moment.exchange
  rw [List.map_append, List.map_append, same, List.map_singleton, List.map_singleton, answer]

theorem Crew.DeafUpTo.recorded (h : crew.DeafUpTo R) : crew.recorded.DeafUpTo (SameTale R) where
  equivalence := equivalence_sameTale h.equivalence
  agrees :=
    { analyze := fun options => (h.agrees.analyze options).recording _
      parse := fun output => (h.agrees.parse output).recording _
      contents := fun files => (h.agrees.contents files).recording _
      consult := fun request => (h.agrees.consult request).recording _
      apply := fun fixes => (h.agrees.apply fixes).recording _
      pause := fun duration => (h.agrees.pause duration).recording _
      say := fun channel text xh yh same =>
        ⟨rfl, (h.agrees.say channel text xh.1 yh.1 same.1).2, same.2⟩ }
  unheard channel text xh := ⟨h.unheard channel text xh.1, rfl⟩

theorem Crew.DeafUpTo.agree_say (h : crew.DeafUpTo R) (channel : Channel) (text text' : String) :
    Agree R (crew.say channel text) (crew.say channel text') := by
  intro x y same
  refine ⟨rfl, ?_⟩
  exact h.equivalence.trans (h.unheard channel text x)
    (h.equivalence.trans same (h.equivalence.symm (h.unheard channel text' y)))

end Deaf

namespace Session

def withBudget (s : Session) (n : Nat) (pos : 0 < n) : Session :=
  { s with maxIterations := n, maxIterations_pos := pos }

variable {s : Session} {crew : Crew σ} {R : σ → σ → Prop} {m : Nat} {pos : 0 < m}

theorem processBatches_withBudget (total position applied : Nat) (stats : Stats) (bs : List Batch) :
    (s.withBudget m pos).processBatches crew total position applied stats bs =
      s.processBatches crew total position applied stats bs := by
  induction bs generalizing position applied stats with
  | nil => rfl
  | cons b bs ih =>
    rw [processBatches, processBatches]
    refine bind_congr fun _ => bind_congr fun result => ?_
    rcases result with f | _ | n
    · rfl
    · rfl
    · dsimp only
      split
      · exact bind_congr fun _ => ih _ _ _
      · exact ih _ _ _

/-- What comes of a session with a smaller budget, and what of `s` with a larger one. Both end alike, or
the first has spent its budget and `s` has iterations left. -/
inductive Outlasts (s : Session) (crew : Crew σ) (R : σ → σ → Prop) :
    Except Failure RunReport × σ → Except Failure RunReport × σ → Prop where
  | ended {result : Except Failure RunReport} {x y : σ} (same : R x y) :
      Outlasts s crew R (result, x) (result, y)
  | spent {report : RunReport} {x y : σ} (exhausted : report.status = .exhausted) (same : R x y)
      (i left : Nat) (stats : Stats) :
      Outlasts s crew R (.ok report, x) ((s.iterate crew i left stats).run y)

def OutlastsFrom (s : Session) (crew : Crew σ) (R : σ → σ → Prop)
    (act act' : StateM σ (Except Failure RunReport)) : Prop :=
  ∀ x y, R x y → Outlasts s crew R (act.run x) (act'.run y)

theorem outlastsFrom_of_agree {act act' : StateM σ (Except Failure RunReport)} (h : Agree R act act') :
    OutlastsFrom s crew R act act' := by
  intro x y same
  obtain ⟨result, after⟩ := h x y same
  rcases hx : act.run x with ⟨r, x'⟩
  rcases hy : act'.run y with ⟨r', y'⟩
  rw [hx, hy] at result after
  obtain rfl : r = r' := result
  exact .ended after

theorem OutlastsFrom.of_bind {α : Type} {act act' : StateM σ α}
    {f f' : α → StateM σ (Except Failure RunReport)} (h : Agree R act act')
    (hf : ∀ a, OutlastsFrom s crew R (f a) (f' a)) :
    OutlastsFrom s crew R (act >>= f) (act' >>= f') := by
  intro x y same
  obtain ⟨answer, after⟩ := h x y same
  rw [run_bind, run_bind, ← answer]
  exact hf _ _ _ after

/-- A session that has spent its budget has just said so. -/
theorem outlastsFrom_of_spent (deaf : crew.DeafUpTo R) {report : RunReport}
    (exhausted : report.status = .exhausted) (text : String) (i left : Nat) (stats : Stats) :
    OutlastsFrom s crew R (do crew.say .log text; return .ok report) (s.iterate crew i left stats) := by
  intro x y same
  exact .spent exhausted (deaf.equivalence.trans (deaf.unheard .log text x) same) i left stats

/-- From any iteration on, the session with the larger budget does what the other one does, and may go
on after it. -/
theorem outlasts_iterate (deaf : crew.DeafUpTo R) (i : Nat) {left left' : Nat} (more : left < left')
    (stats : Stats) :
    OutlastsFrom (s.withBudget m pos) crew R (s.iterate crew i left stats)
      ((s.withBudget m pos).iterate crew i left' stats) := by
  induction left using Nat.strongRecOn generalizing i left' stats with
  | ind left ih =>
    obtain ⟨left', rfl⟩ := Nat.exists_eq_add_one_of_ne_zero (Nat.ne_zero_of_lt more)
    have say (channel : Channel) (text : String) :
        Agree R (crew.say channel text) (crew.say channel text) := deaf.agrees.say channel text
    rw [iterate, iterate]
    refine .of_bind (deaf.agree_say _ _ _) fun _ =>
      .of_bind (agree_analyze s deaf.agrees) fun found => ?_
    cases found with
    | error f =>
      apply outlastsFrom_of_agree
      cases f with
      | unavailable binary why => exact (say _ _).bind fun _ => agree_pure _
      | _ => exact agree_pure _
    | ok snapshot =>
      dsimp only
      split
      case isTrue => exact outlastsFrom_of_agree ((say _ _).bind fun _ => agree_pure _)
      case isFalse =>
      split
      case isTrue => exact outlastsFrom_of_agree (agree_pure _)
      case isFalse =>
        refine .of_bind (say _ _) fun _ => ?_
        rw [processBatches_withBudget]
        refine .of_bind (agree_processBatches s deaf.agrees _ _ _ _ _) fun result => ?_
        rcases result with f | ⟨(_ | n) | batch, stats⟩
        · exact outlastsFrom_of_agree (agree_pure _)
        · exact outlastsFrom_of_agree ((say _ _).bind fun _ => agree_pure _)
        · refine .of_bind (say _ _) fun _ => .of_bind (say _ _) fun _ => ?_
          cases left with
          | zero => exact outlastsFrom_of_spent deaf rfl _ _ _ _
          | succ left => exact ih left (Nat.lt_succ_self left) _ (Nat.lt_of_succ_lt_succ more) _
        · exact outlastsFrom_of_agree (agree_pure _)

section Recorded

variable {r r' : Except Failure RunReport × Recorded σ}

theorem Outlasts.calls (h : Outlasts s crew.recorded (SameTale R) r r') :
    r.2.2.map Moment.exchange <+: r'.2.2.map Moment.exchange := by
  cases h with
  | ended same => exact same.2 ▸ List.prefix_refl _
  | @spent _ _ y _ same i left stats =>
    obtain ⟨added, told, -⟩ := tells_iterate s crew i left stats y.1 y.2
    rw [same.2, told, List.map_append]
    exact List.prefix_append _ _

theorem Outlasts.same (h : Outlasts s crew.recorded (SameTale R) r r')
    (unspent : statusOf r.1 ≠ some .exhausted) :
    r'.2.2.map Moment.exchange = r.2.2.map Moment.exchange ∧ r'.1 = r.1 := by
  cases h with
  | ended same => exact ⟨same.2.symm, rfl⟩
  | spent exhausted => exact absurd (congrArg some exhausted) unspent

end Recorded

structure Extends (s s' : Session) (crew : Crew σ) (stats : Stats) (x : σ) : Prop where
  /-- The calls of `s`, each with what came of it, are the first ones of `s'`. -/
  calls : s.exchanges crew stats x <+: s'.exchanges crew stats x
  /-- Unless `s` has spent its budget, there are no more calls, and the result is the same. -/
  same : statusOf ((s.run crew stats).run x).1 ≠ some .exhausted →
    s'.exchanges crew stats x = s.exchanges crew stats x ∧
      ((s'.run crew stats).run x).1 = ((s.run crew stats).run x).1

/-- A larger budget does nothing but extend a session. -/
theorem extends_withBudget (deaf : crew.Deaf) (more : s.maxIterations < m) (stats : Stats) (x : σ) :
    Extends s (s.withBudget m (Nat.zero_lt_of_lt more)) crew stats x := by
  obtain ⟨R, deaf⟩ := deaf
  have deaf := deaf.recorded
  have pos := Nat.zero_lt_of_lt more
  have fewer : s.maxIterations - 1 < m - 1 := Nat.sub_lt_sub_right s.maxIterations_pos more
  have outlasts : Outlasts (s.withBudget m pos) crew.recorded (SameTale R)
      ((s.run crew.recorded stats).run (x, []))
      (((s.withBudget m pos).run crew.recorded stats).run (x, [])) :=
    outlasts_iterate deaf 1 fewer stats _ _ (deaf.equivalence.refl _)
  refine ⟨outlasts.calls, fun unspent => ?_⟩
  rw [← s.run_recorded] at unspent ⊢
  rw [← (s.withBudget m pos).run_recorded]
  exact outlasts.same unspent

end Session

namespace Countdown

/-! A project with a number of errors, one of which is fixed in each iteration. -/

def answer : Response := ⟨.success, "", [⟨"a.php", 1, "", ""⟩]⟩

def crew : Crew Nat where
  analyze _ := do return .ok ⟨"", .ofNat (← get)⟩
  parse _ := return [⟨"", "a.php", 1, .other, none, none⟩]
  contents _ := return []
  consult _ := return .ok answer
  apply _ := do
    modify Nat.pred
    return .ok true
  pause _ := return ()
  say _ _ := return ()

def session : Session where
  project := []
  pageSize := 1
  maxIterations := 1
  batchDelay := none
  analysis := none
  pageSize_pos := Nat.one_pos
  maxIterations_pos := Nat.one_pos

/-- Two errors are one too many for one iteration, but not for three. -/
theorem extends_three :
    Session.Extends session (session.withBudget 3 (by decide)) crew .zero 2 ∧
      Session.statusOf ((session.run crew .zero).run 2).1 = some .exhausted ∧
      Session.statusOf (((session.withBudget 3 (by decide)).run crew .zero).run 2).1 =
        some .converged := by
  refine ⟨Session.extends_withBudget (Crew.deaf_of_silent fun _ _ _ => rfl) (by decide) .zero 2, ?_, ?_⟩
  · decide +kernel
  · decide +kernel

end Countdown
end Mender
