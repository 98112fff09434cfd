import Mender.Proofs.Steps
import Mender.Session.Loop

/-! Two crews that cannot be told apart make the same session of it. So what every member of a crew
keeps is kept by a whole session, whatever it is told and however it ends. -/

namespace Mender

variable {σ τ : Type}

/-- Call by call, two crews give the same answers from related states, and lead to related ones. -/
structure Crew.Agrees (R : σ → τ → Prop) (crew : Crew σ) (crew' : Crew τ) : Prop where
  analyze : ∀ options, Agree R (crew.analyze options) (crew'.analyze options)
  parse : ∀ output, Agree R (crew.parse output) (crew'.parse output)
  contents : ∀ files, Agree R (crew.contents files) (crew'.contents files)
  consult : ∀ request, Agree R (crew.consult request) (crew'.consult request)
  apply : ∀ fixes, Agree R (crew.apply fixes) (crew'.apply fixes)
  pause : ∀ duration, Agree R (crew.pause duration) (crew'.pause duration)
  say : ∀ channel text, Agree R (crew.say channel text) (crew'.say channel text)

structure Crew.Keeps (I : σ → Prop) (crew : Crew σ) : Prop where
  analyze : ∀ options, Mender.Keeps I (crew.analyze options)
  parse : ∀ output, Mender.Keeps I (crew.parse output)
  contents : ∀ files, Mender.Keeps I (crew.contents files)
  consult : ∀ request, Mender.Keeps I (crew.consult request)
  apply : ∀ fixes, Mender.Keeps I (crew.apply fixes)
  pause : ∀ duration, Mender.Keeps I (crew.pause duration)
  say : ∀ channel text, Mender.Keeps I (crew.say channel text)

theorem Crew.Keeps.agrees {I : σ → Prop} {crew : Crew σ} (h : crew.Keeps I) :
    crew.Agrees (fun x y => x = y ∧ I x) crew where
  analyze options := (h.analyze options).agree
  parse output := (h.parse output).agree
  contents files := (h.contents files).agree
  consult request := (h.consult request).agree
  apply fixes := (h.apply fixes).agree
  pause duration := (h.pause duration).agree
  say channel text := (h.say channel text).agree

namespace Session

variable {R : σ → τ → Prop} {crew : Crew σ} {crew' : Crew τ} (s : Session)

theorem agree_analyze (h : crew.Agrees R crew') : Agree R (s.analyze crew) (s.analyze crew') := by
  refine (h.analyze _).bind fun answer => ?_
  cases answer with
  | error f => exact agree_pure _
  | ok a => exact (agree_pure _).ite ((h.parse _).bind fun _ => agree_pure _)

theorem agree_responseTo (h : crew.Agrees R crew') (request : Request) :
    Agree R (responseTo crew request) (responseTo crew' request) := by
  refine (h.consult request).bind fun answer => ?_
  cases answer <;> exact agree_pure _

theorem agree_processBatch (h : crew.Agrees R crew') (b : Batch) :
    Agree R (s.processBatch crew b) (s.processBatch crew' b) := by
  refine (h.contents _).bind fun contents => (h.say _ _).bind fun _ =>
    (agree_responseTo h _).bind fun response => ?_
  refine (h.say _ _).first fun _ => ?_
  refine ((h.say _ _).bind fun _ => agree_pure _).ite ?_
  refine (h.say _ _).bind fun _ => (h.apply _).bind fun answer => ?_
  rcases answer with f | _ | _
  · exact agree_pure _
  · exact (h.say _ _).bind fun _ => agree_pure _
  · exact agree_pure _

theorem agree_processBatches (h : crew.Agrees R crew') (total position applied : Nat) (stats : Stats)
    (bs : List Batch) :
    Agree R (s.processBatches crew total position applied stats bs)
      (s.processBatches crew' total position applied stats bs) := by
  induction bs generalizing position applied stats with
  | nil => exact agree_pure _
  | cons b bs ih =>
    refine (h.say _ _).bind fun _ => (agree_processBatch s h b).bind fun result => ?_
    rcases result with f | _ | n
    · exact agree_pure _
    · exact agree_pure _
    · exact (h.pause _).first fun _ => ih _ _ _

theorem agree_iterate (h : crew.Agrees R crew') (i left : Nat) (stats : Stats) :
    Agree R (s.iterate crew i left stats) (s.iterate crew' i left stats) := by
  induction left using Nat.strongRecOn generalizing i stats with
  | ind left ih =>
    rw [iterate, iterate]
    refine (h.say _ _).bind fun _ => (agree_analyze s h).bind fun found => ?_
    cases found with
    | error f =>
      cases f with
      | unavailable binary why => exact (h.say _ _).bind fun _ => agree_pure _
      | _ => exact agree_pure _
    | ok snapshot =>
      refine ((h.say _ _).bind fun _ => agree_pure _).ite ((agree_pure _).ite ?_)
      refine (h.say _ _).bind fun _ => (agree_processBatches s h _ _ _ _ _).bind fun result => ?_
      rcases result with f | ⟨(_ | n) | batch, stats⟩
      · exact agree_pure _
      · exact (h.say _ _).bind fun _ => agree_pure _
      · refine (h.say _ _).bind fun _ => (h.say _ _).bind fun _ => ?_
        cases left with
        | zero => exact (h.say _ _).bind fun _ => agree_pure _
        | succ left => exact ih left (Nat.lt_succ_self left) _ _
      · exact agree_pure _

theorem agree_run (h : crew.Agrees R crew') (stats : Stats) :
    Agree R (s.run crew stats) (s.run crew' stats) :=
  agree_iterate s h 1 _ stats

/-- What no call to the crew breaks, a session does not break. -/
theorem keeps_run {I : σ → Prop} (h : crew.Keeps I) (stats : Stats) : Mender.Keeps I (s.run crew stats) :=
  (agree_run s h.agrees stats).keeps

end Session
end Mender
