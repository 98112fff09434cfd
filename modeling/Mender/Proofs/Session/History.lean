import Mender.Proofs.Session.Agreement

/-! The history of a session: the calls it makes to its crew, in order, each with what came of it. A
recorded crew writes it down and does nothing else, so a session goes on with it as without. -/

namespace Mender

inductive Exchange where
  | analysis (options : Option AnalysisOptions) (answer : Except Failure Analysis)
  | parsing (output : String) (found : List Diagnostic)
  | reading (files : List String) (contents : List (String × String))
  | consultation (request : Request) (answer : Except Failure Response)
  | application (fixes : List Fix) (answer : Except Failure Bool)
  | pause (duration : Number)

structure Moment (σ : Type) where
  state : σ
  exchange : Exchange

abbrev Recorded (σ : Type) := σ × List (Moment σ)

section Recording

variable {σ α β : Type}

def recording (tell : α → Exchange) (act : StateM σ α) : StateM (Recorded σ) α := fun (x, h) =>
  ((act.run x).1, ((act.run x).2, h ++ [⟨x, tell (act.run x).1⟩]))

/-- The step, of which nothing is written down. -/
def unrecorded (act : StateM σ α) : StateM (Recorded σ) α := fun (x, h) =>
  ((act.run x).1, ((act.run x).2, h))

theorem agree_recording (tell : α → Exchange) (act : StateM σ α) :
    Agree (fun xh x => xh.1 = x) (recording tell act) act := by
  rintro ⟨x, h⟩ _ rfl
  exact ⟨rfl, rfl⟩

theorem agree_unrecorded (act : StateM σ α) : Agree (fun xh x => xh.1 = x) (unrecorded act) act := by
  rintro ⟨x, h⟩ _ rfl
  exact ⟨rfl, rfl⟩

/-- What the step adds to the history has to do with its answer as `P` says. -/
def Tells (P : List Exchange → α → Prop) (act : StateM (Recorded σ) α) : Prop :=
  ∀ x h, ∃ added, (act.run (x, h)).2.2 = h ++ added ∧
    P (added.map Moment.exchange) (act.run (x, h)).1

theorem tells_pure {P : List Exchange → α → Prop} {a : α} (h : P [] a) :
    Tells P (pure a : StateM (Recorded σ) α) := fun _ hist => ⟨[], (List.append_nil hist).symm, h⟩

theorem Tells.mono {P Q : List Exchange → α → Prop} {act : StateM (Recorded σ) α}
    (h : Tells P act) (hPQ : ∀ es a, P es a → Q es a) : Tells Q act := by
  intro x hist
  obtain ⟨added, happ, hP⟩ := h x hist
  exact ⟨added, happ, hPQ _ _ hP⟩

theorem Tells.bind {P : List Exchange → α → Prop} {Q : List Exchange → β → Prop}
    {act : StateM (Recorded σ) α} {f : α → StateM (Recorded σ) β} (h : Tells P act)
    (hf : ∀ a es, P es a → Tells (fun es' b => Q (es ++ es') b) (f a)) : Tells Q (act >>= f) := by
  intro x hist
  obtain ⟨added, happ, hP⟩ := h x hist
  obtain ⟨more, happ', hQ⟩ := hf _ _ hP (act.run (x, hist)).2.1 (act.run (x, hist)).2.2
  refine ⟨added ++ more, ?_, ?_⟩
  · rw [← List.append_assoc, ← happ]
    exact happ'
  · rw [List.map_append]
    exact hQ

theorem tells_recording_bind {Q : List Exchange → β → Prop} {tell : α → Exchange}
    {act : StateM σ α} {f : α → StateM (Recorded σ) β}
    (hf : ∀ a, Tells (fun es b => Q (tell a :: es) b) (f a)) :
    Tells Q (recording tell act >>= f) := by
  have told : Tells (fun es a => es = [tell a]) (recording tell act) :=
    fun x h => ⟨[⟨x, tell (act.run x).1⟩], rfl, rfl⟩
  refine told.bind fun a es hes => ?_
  subst hes
  exact hf a

theorem tells_unrecorded_bind {Q : List Exchange → β → Prop} {act : StateM σ α}
    {f : α → StateM (Recorded σ) β} (hf : ∀ a, Tells Q (f a)) : Tells Q (unrecorded act >>= f) := by
  have told : Tells (fun es _ => es = []) (unrecorded act) :=
    fun _ h => ⟨[], (List.append_nil h).symm, rfl⟩
  refine told.bind fun a es hes => ?_
  subst hes
  exact hf a

theorem Tells.ite {P : List Exchange → α → Prop} {c : Prop} [Decidable c]
    {act act' : StateM (Recorded σ) α} (h : c → Tells P act) (h' : ¬ c → Tells P act') :
    Tells P (if c then act else act') := by
  split
  case isTrue hc => exact h hc
  case isFalse hc => exact h' hc

theorem Tells.aside {P : List Exchange → α → Prop} {c : Prop} [Decidable c] {act : StateM σ Unit}
    {f : Unit → StateM (Recorded σ) α} (h : Tells P (f ())) :
    Tells P (if c then unrecorded act >>= f else f ()) :=
  .ite (fun _ => tells_unrecorded_bind fun _ => h) fun _ => h

end Recording

variable {σ : Type}

/-- The crew, its calls but for what it says being written down. -/
def Crew.recorded (crew : Crew σ) : Crew (Recorded σ) where
  analyze options := recording (.analysis options) (crew.analyze options)
  parse output := recording (.parsing output) (crew.parse output)
  contents files := recording (.reading files) (crew.contents files)
  consult request := recording (.consultation request) (crew.consult request)
  apply fixes := recording (.application fixes) (crew.apply fixes)
  pause duration := recording (fun _ => .pause duration) (crew.pause duration)
  say channel text := unrecorded (crew.say channel text)

theorem Crew.recorded_agrees (crew : Crew σ) :
    crew.recorded.Agrees (fun xh x => xh.1 = x) crew where
  analyze _ := agree_recording _ _
  parse _ := agree_recording _ _
  contents _ := agree_recording _ _
  consult _ := agree_recording _ _
  apply _ := agree_recording _ _
  pause _ := agree_recording _ _
  say _ _ := agree_unrecorded _

namespace Session

def history (s : Session) (crew : Crew σ) (stats : Stats) (x : σ) : List (Moment σ) :=
  ((s.run crew.recorded stats).run (x, [])).2.2

def exchanges (s : Session) (crew : Crew σ) (stats : Stats) (x : σ) : List Exchange :=
  (s.history crew stats x).map Moment.exchange

/-- Writing the history down changes nothing of what a session comes to. -/
theorem run_recorded (s : Session) (crew : Crew σ) (stats : Stats) (x : σ) :
    ((s.run crew.recorded stats).run (x, [])).1 = ((s.run crew stats).run x).1 :=
  (s.agree_run crew.recorded_agrees stats (x, []) x rfl).1

end Session
end Mender
