import Mender.Proofs.Session.History

/-! The course of a session: which exchanges it consists of, in which order, and what they come to. It
is read off the loop once, and everything that is said of a whole session is said of its course. -/

namespace Mender

def proposals : Except Failure Response → List Fix
  | .ok response => response.fixes
  | .error _ => []

namespace Session

/-- The exchanges of one analysis, and what it found. -/
inductive Analyzed (s : Session) : List Exchange → Except Failure Snapshot → Prop where
  | failed (f : Failure) : Analyzed s [.analysis s.analysis (.error f)] (.error f)
  | passing {a : Analysis} (passing : a.exitCode = 0) :
      Analyzed s [.analysis s.analysis (.ok a)] (.ok ⟨a.exitCode, []⟩)
  | failing {a : Analysis} (failing : a.exitCode ≠ 0) (ds : List Diagnostic) :
      Analyzed s [.analysis s.analysis (.ok a), .parsing a.output ds] (.ok ⟨a.exitCode, ds⟩)

/-- The exchanges over one batch, and the number of fixes applied. -/
inductive Sent (s : Session) (b : Batch) : List Exchange → Except Failure (Option Nat) → Prop where
  | nothing {contents : List (String × String)} {answer : Except Failure Response}
      (idle : proposals answer = []) :
      Sent s b
        [.reading b.groups.files contents,
          .consultation (.ofBatch b contents s.project.toText) answer]
        (.ok (some 0))
  | tried {contents : List (String × String)} {answer : Except Failure Response}
      (some : proposals answer ≠ []) (outcome : Except Failure Bool) :
      Sent s b
        [.reading b.groups.files contents,
          .consultation (.ofBatch b contents s.project.toText) answer,
          .application (proposals answer) outcome]
        (outcome.map fun all => if all then .some (proposals answer).length else none)

/-- What stands between a batch and the ones after it. -/
def breath (s : Session) (bs : List Batch) : List Exchange :=
  if bs.isEmpty then [] else [.pause (s.batchDelay.getD 0)]

inductive Paged (s : Session) :
    Nat → Nat → Stats → List Batch → List Exchange → Except Failure (Pass × Stats) → Prop where
  | finished {position applied : Nat} {stats : Stats} :
      Paged s position applied stats [] [] (.ok (.finished applied, stats))
  | threw {position applied : Nat} {stats : Stats} {b : Batch} {bs : List Batch}
      {es : List Exchange} {f : Failure} (sent : Sent s b es (.error f)) :
      Paged s position applied stats (b :: bs) es (.error f)
  | refused {position applied : Nat} {stats : Stats} {b : Batch} {bs : List Batch}
      {es : List Exchange} (sent : Sent s b es (.ok none)) :
      Paged s position applied stats (b :: bs) es (.ok (.failedAt position, stats))
  | next {position applied n : Nat} {stats : Stats} {b : Batch} {bs : List Batch}
      {es es' : List Exchange} {result : Except Failure (Pass × Stats)}
      (sent : Sent s b es (.ok (some n)))
      (rest : Paged s (position + 1) (applied + n) (stats.record b.diagnostics (.ofNat n)) bs es'
        result) :
      Paged s position applied stats (b :: bs) (es ++ (breath s bs ++ es')) result

inductive Worked (s : Session) (i : Nat) (stats : Stats) :
    List Exchange → Except Failure (Pass × Stats) → Prop where
  | intro {a : Analysis} {ds : List Diagnostic} {es : List Exchange}
      {result : Except Failure (Pass × Stats)} (failing : a.exitCode ≠ 0) (found : ds ≠ [])
      (paged : Paged s 1 0 { stats with iterations := .ofNat i } (Batch.pages ds s.pageSize) es
        result) :
      Worked s i stats (.analysis s.analysis (.ok a) :: .parsing a.output ds :: es) result

/-- The exchanges from iteration `i` on, with `left` more after it. -/
inductive Course (s : Session) :
    Nat → Nat → Stats → List Exchange → Except Failure RunReport → Prop where
  | unavailable {i left : Nat} {stats : Stats} (binary : String) (why : Unavailability) :
      Course s i left stats [.analysis s.analysis (.error (.unavailable binary why))]
        (.ok ⟨.analyzerUnavailable (why.message binary), stats⟩)
  | threw {i left : Nat} {stats : Stats} {f : Failure}
      (other : ∀ binary why, f ≠ .unavailable binary why) :
      Course s i left stats [.analysis s.analysis (.error f)] (.error f)
  | clean {i left : Nat} {stats : Stats} {a : Analysis} (passing : a.exitCode = 0) :
      Course s i left stats [.analysis s.analysis (.ok a)]
        (.ok ⟨.clean, { stats with iterations := .ofNat i }⟩)
  | unparsed {i left : Nat} {stats : Stats} {a : Analysis} (failing : a.exitCode ≠ 0) :
      Course s i left stats [.analysis s.analysis (.ok a), .parsing a.output []]
        (.ok ⟨.unparsed a.exitCode, { stats with iterations := .ofNat i }⟩)
  | broken {i left : Nat} {stats : Stats} {es : List Exchange} {f : Failure}
      (worked : Worked s i stats es (.error f)) : Course s i left stats es (.error f)
  | refused {i left batch : Nat} {stats stats' : Stats} {es : List Exchange}
      (worked : Worked s i stats es (.ok (.failedAt batch, stats'))) :
      Course s i left stats es (.ok ⟨.applyFailed batch i, stats'⟩)
  | idle {i left : Nat} {stats stats' : Stats} {es : List Exchange}
      (worked : Worked s i stats es (.ok (.finished 0, stats'))) :
      Course s i left stats es (.ok ⟨.nothingApplied i, stats'⟩)
  | spent {i n : Nat} {stats stats' : Stats} {es : List Exchange}
      (worked : Worked s i stats es (.ok (.finished (n + 1), stats'))) :
      Course s i 0 stats es (.ok ⟨.budgetSpent s.maxIterations, stats'⟩)
  | next {i left n : Nat} {stats stats' : Stats} {es es' : List Exchange}
      {result : Except Failure RunReport}
      (worked : Worked s i stats es (.ok (.finished (n + 1), stats')))
      (rest : Course s (i + 1) left stats' es' result) :
      Course s i (left + 1) stats (es ++ es') result

variable {σ : Type} (s : Session) (crew : Crew σ)

theorem tells_analyze : Tells (Analyzed s) (s.analyze crew.recorded) := by
  refine tells_recording_bind fun answer => ?_
  cases answer with
  | error f => exact tells_pure (.failed f)
  | ok a =>
    refine Tells.ite (fun passing => tells_pure (.passing passing)) fun failing => ?_
    exact tells_recording_bind fun ds => tells_pure (.failing failing ds)

/-- An answer leads to a response with the same fixes. -/
theorem tells_responseTo_bind {α : Type} {Q : List Exchange → α → Prop} (request : Request)
    {f : Response → StateM (Recorded σ) α}
    (hf : ∀ answer response, response.fixes = proposals answer →
      Tells (fun es a => Q (.consultation request answer :: es) a) (f response)) :
    Tells Q (responseTo crew.recorded request >>= f) := by
  rw [responseTo, bind_assoc]
  refine tells_recording_bind fun answer => ?_
  cases answer with
  | ok response => exact hf (.ok response) response rfl
  | error g => exact hf (.error g) (.failed g.message) rfl

theorem tells_processBatch (b : Batch) : Tells (Sent s b) (s.processBatch crew.recorded b) := by
  refine tells_recording_bind fun contents => tells_unrecorded_bind fun _ =>
    tells_responseTo_bind _ _ fun answer response same => Tells.aside ?_
  rw [same]
  refine Tells.ite (fun none => tells_unrecorded_bind fun _ => tells_pure ?_) fun some =>
    tells_unrecorded_bind fun _ => tells_recording_bind fun outcome => ?_
  · exact .nothing (List.isEmpty_iff.1 none)
  · have tried : Sent s b
        [.reading b.groups.files contents,
          .consultation (.ofBatch b contents s.project.toText) answer,
          .application (proposals answer) outcome] _ :=
      .tried (fun h => some (List.isEmpty_iff.2 h)) outcome
    rcases outcome with f | _ | _
    · exact tells_pure tried
    · exact tells_unrecorded_bind fun _ => tells_pure tried
    · exact tells_pure tried

theorem tells_processBatches (total position applied : Nat) (stats : Stats) (bs : List Batch) :
    Tells (Paged s position applied stats bs)
      (s.processBatches crew.recorded total position applied stats bs) := by
  induction bs generalizing position applied stats with
  | nil => exact tells_pure .finished
  | cons b bs ih =>
    refine tells_unrecorded_bind fun _ => (tells_processBatch s crew b).bind fun result es sent => ?_
    rcases result with f | _ | n
    · exact tells_pure (by rw [List.append_nil]; exact .threw sent)
    · exact tells_pure (by rw [List.append_nil]; exact .refused sent)
    · have rest := (ih (position + 1) (applied + n) (stats.record b.diagnostics (.ofNat n))).mono
        fun _ _ => Paged.next sent
      cases bs with
      | nil => exact rest
      | cons b' bs =>
        refine Tells.ite (fun _ => ?_) fun last => absurd rfl last
        change Tells _ (recording (fun _ => .pause (s.batchDelay.getD 0)) (crew.pause _) >>= _)
        exact tells_recording_bind fun _ => rest

theorem tells_iterate (i left : Nat) (stats : Stats) :
    Tells (Course s i left stats) (s.iterate crew.recorded i left stats) := by
  -- `iterate` splits on what is left only at its end, so the cases cannot be taken here
  induction left using Nat.strongRecOn generalizing i stats with
  | ind left ih =>
    rw [iterate]
    refine tells_unrecorded_bind fun _ => (tells_analyze s crew).bind fun found es analyzed => ?_
    cases analyzed with
    | failed f =>
      cases f with
      | unavailable binary why =>
        exact tells_unrecorded_bind fun _ => tells_pure (.unavailable binary why)
      | _ => exact tells_pure (.threw fun _ _ h => by cases h)
    | passing passing =>
      refine Tells.ite (fun _ => tells_unrecorded_bind fun _ => ?_) fun h => absurd passing h
      exact tells_pure (.clean passing)
    | failing failing ds =>
      refine Tells.ite (fun h => absurd h failing) fun _ => Tells.ite (fun none => ?_) fun some => ?_
      · obtain rfl := List.isEmpty_iff.1 none
        exact tells_pure (.unparsed failing)
      · have found : ds ≠ [] := fun none => some (List.isEmpty_iff.2 none)
        refine tells_unrecorded_bind fun _ =>
          (tells_processBatches s crew _ _ _ _ _).bind fun result es paged => ?_
        have worked := Worked.intro failing found paged
        have ended := worked
        rw [← List.append_nil es] at ended
        rcases result with f | ⟨(_ | n) | batch, stats⟩
        · exact tells_pure (.broken ended)
        · exact tells_unrecorded_bind fun _ => tells_pure (.idle ended)
        · refine tells_unrecorded_bind fun _ => tells_unrecorded_bind fun _ => ?_
          cases left with
          | zero => exact tells_unrecorded_bind fun _ => tells_pure (.spent ended)
          | succ left =>
            exact (ih left (Nat.lt_succ_self left) _ _).mono fun _ _ => Course.next worked
        · exact tells_pure (.refused ended)

theorem run_course (stats : Stats) (x : σ) :
    Course s 1 (s.maxIterations - 1) stats (s.exchanges crew stats x)
      ((s.run crew stats).run x).1 := by
  obtain ⟨added, happ, course⟩ := tells_iterate s crew 1 (s.maxIterations - 1) stats x []
  rw [← run_recorded]
  have told : s.history crew stats x = added := happ
  rw [exchanges, told]
  exact course

end Session
end Mender
