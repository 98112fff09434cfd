import Mender.Proofs.Session.Course

/-! The status of a run says what happened in it: how the last analysis went, what the oracle proposed
after it, and what became of the fixes. A run that reports nothing at all was failed by the analyzer or
by the fixes, never by the oracle. -/

namespace Mender

namespace Exchange

def analysis? : Exchange → Option (Except Failure Analysis)
  | .analysis _ answer => some answer
  | _ => none

def proposals? : Exchange → Option (List Fix)
  | .consultation _ answer => some (proposals answer)
  | _ => none

def application? : Exchange → Option (List Fix × Except Failure Bool)
  | .application fixes answer => some (fixes, answer)
  | _ => none

end Exchange

namespace Session

def analyses (es : List Exchange) : List (Except Failure Analysis) :=
  es.filterMap Exchange.analysis?

def proposed (es : List Exchange) : List (List Fix) := es.filterMap Exchange.proposals?

def applications (es : List Exchange) : List (List Fix × Except Failure Bool) :=
  es.filterMap Exchange.application?

/-- An analysis, and the exchanges after it and before the next one. -/
structure Iteration where
  answer : Except Failure Analysis
  rest : List Exchange

def iterations : List Exchange → List Iteration
  | [] => []
  | .analysis _ answer :: es => ⟨answer, es.takeWhile (·.analysis?.isNone)⟩ :: iterations es
  | _ :: es => iterations es

/-- It had diagnostics, some fixes for them were applied, and none could not be. -/
structure Iteration.Productive (it : Iteration) : Prop where
  found : ∃ a ds, it.answer = .ok a ∧ a.exitCode ≠ 0 ∧ .parsing a.output ds ∈ it.rest ∧ ds ≠ []
  some : ∃ fs, fs ≠ [] ∧ (fs, .ok true) ∈ applications it.rest
  all : ∀ p ∈ applications it.rest, p.2 = .ok true

def EndsClean (es : List Exchange) : Prop :=
  ∃ it a, (iterations es).getLast? = some it ∧ it.answer = .ok a ∧ a.exitCode = 0

/-- At its end, there is nothing to propose fixes for, or no fix is proposed. -/
def EndsStuck (es : List Exchange) : Prop :=
  ∃ it a, (iterations es).getLast? = some it ∧ it.answer = .ok a ∧ a.exitCode ≠ 0 ∧
    (.parsing a.output [] ∈ it.rest ∨ ∀ fs ∈ proposed it.rest, fs = [])

/-- At its end, the analyzer was not to be had, or a fix could not be applied. -/
def EndsAborted (es : List Exchange) : Prop :=
  (∃ binary why, (analyses es).getLast? = some (.error (.unavailable binary why))) ∨
    ∃ fs, (applications es).getLast? = some (fs, .ok false)

/-- As many iterations as there may be, and all of them productive. -/
def EndsExhausted (budget : Nat) (es : List Exchange) : Prop :=
  (iterations es).length = budget ∧ ∀ it ∈ iterations es, it.Productive

/-- The analyzer or the fixes failed with `f`. An analyzer that is not to be had has not failed. -/
def Fails (f : Failure) (es : List Exchange) : Prop :=
  (.error f ∈ analyses es ∧ ∀ binary why, f ≠ .unavailable binary why) ∨
    ∃ fs, (fs, .error f) ∈ applications es

def statusOf : Except Failure RunReport → Option RunStatus
  | .ok report => some report.status
  | .error _ => none

structure Verdict (budget : Nat) (es : List Exchange) (result : Except Failure RunReport) : Prop where
  within : (analyses es).length ≤ budget
  converged : statusOf result = some .converged ↔ EndsClean es
  success : (∃ report, result = .ok report ∧ report.success = true) ↔ EndsClean es
  stuck : statusOf result = some .stuck ↔ EndsStuck es
  aborted : statusOf result = some .aborted ↔ EndsAborted es
  exhausted : statusOf result = some .exhausted ↔ EndsExhausted budget es
  failed : ∀ f, result = .error f ↔ Fails f es

section Lists

variable {es es' : List Exchange}

theorem analyses_append : analyses (es ++ es') = analyses es ++ analyses es' :=
  List.filterMap_append

theorem proposed_append : proposed (es ++ es') = proposed es ++ proposed es' :=
  List.filterMap_append

theorem applications_append : applications (es ++ es') = applications es ++ applications es' :=
  List.filterMap_append

theorem map_answer_iterations : (iterations es).map (·.answer) = analyses es := by
  induction es with
  | nil => rfl
  | cons e es ih =>
    cases e with
    | analysis options answer => exact congrArg (answer :: ·) ih
    | _ => exact ih

/-- Up to the next analysis, everything belongs to one iteration. -/
theorem iterations_cons_append (options : Option AnalysisOptions)
    (answer : Except Failure Analysis) (h : analyses es = [])
    (h' : ∀ e ∈ es'.head?, e.analysis?.isSome) :
    iterations (.analysis options answer :: (es ++ es')) = ⟨answer, es⟩ :: iterations es' := by
  have inner : ∀ e ∈ es, e.analysis?.isNone := by
    simpa [analyses, List.filterMap_eq_nil_iff] using h
  have skip : iterations (es ++ es') = iterations es' := by
    clear inner
    induction es with
    | nil => rfl
    | cons e es ih =>
      cases e with
      | analysis options answer => simp [analyses, Exchange.analysis?] at h
      | _ => exact ih h
  have stop : es'.takeWhile (·.analysis?.isNone) = [] := by
    cases es' with
    | nil => rfl
    | cons e es' =>
      have := h' e rfl
      simp [Option.isNone_iff_eq_none, Option.isSome_iff_ne_none.1 this]
  rw [iterations, skip, List.takeWhile_append_of_pos inner, stop, List.append_nil]

theorem iterations_cons (options : Option AnalysisOptions) (answer : Except Failure Analysis)
    (h : analyses es = []) : iterations (.analysis options answer :: es) = [⟨answer, es⟩] := by
  have none : ∀ e ∈ ([] : List Exchange).head?, e.analysis?.isSome := fun _ h => by cases h
  have eq := iterations_cons_append options answer h none
  rwa [List.append_nil] at eq

end Lists

section Batches

variable {s : Session} {b : Batch} {bs : List Batch} {es : List Exchange} {position applied : Nat}
  {stats : Stats}

def closing : Except Failure (Pass × Stats) → List (Except Failure Bool)
  | .error f => [.error f]
  | .ok (.failedAt _, _) => [.ok false]
  | .ok (.finished _, _) => []

theorem Sent.analyses_eq_nil {result : Except Failure (Option Nat)} (h : Sent s b es result) :
    analyses es = [] := by
  cases h <;> rfl

/-- Over one batch, either nothing is proposed, or what is proposed is applied. -/
theorem Sent.calls {result : Except Failure (Option Nat)} (h : Sent s b es result) :
    (proposed es = [[]] ∧ applications es = [] ∧ result = .ok (some 0)) ∨
      ∃ fs outcome, fs ≠ [] ∧ proposed es = [fs] ∧ applications es = [(fs, outcome)] ∧
        result = outcome.map fun all => if all then some fs.length else none := by
  cases h with
  | nothing idle => exact .inl ⟨congrArg (fun fs => [fs]) idle, rfl, rfl⟩
  | tried some outcome => exact .inr ⟨_, outcome, some, rfl, rfl, rfl⟩

theorem Sent.applications_fst {result : Except Failure (Option Nat)} (h : Sent s b es result) :
    (applications es).map (·.1) = (proposed es).filter (· ≠ []) := by
  rcases h.calls with ⟨hp, ha, -⟩ | ⟨fs, outcome, some, hp, ha, -⟩
  · rw [hp, ha]
    rfl
  · simp [hp, ha, some]

theorem Sent.of_error {f : Failure} (h : Sent s b es (.error f)) :
    (applications es).map (·.2) = [.error f] := by
  rcases h.calls with ⟨-, -, hr⟩ | ⟨fs, outcome, -, -, ha, hr⟩
  · cases hr
  · rcases outcome with g | _ | _
    · cases hr
      rw [ha]
      rfl
    · cases hr
    · cases hr

theorem Sent.of_none (h : Sent s b es (.ok none)) :
    (applications es).map (·.2) = [.ok false] := by
  rcases h.calls with ⟨-, -, hr⟩ | ⟨fs, outcome, -, -, ha, hr⟩
  · cases hr
  · rcases outcome with g | _ | _
    · cases hr
    · rw [ha]
      rfl
    · cases hr

theorem Sent.of_some {n : Nat} (h : Sent s b es (.ok (some n))) :
    (proposed es).flatten.length = n ∧
      ∃ k, (applications es).map (·.2) = List.replicate k (.ok true) := by
  rcases h.calls with ⟨hp, ha, hr⟩ | ⟨fs, outcome, -, hp, ha, hr⟩
  · cases hr
    exact ⟨by rw [hp]; rfl, 0, by rw [ha]; rfl⟩
  · rcases outcome with g | _ | _
    · cases hr
    · cases hr
    · cases hr
      exact ⟨by rw [hp, List.flatten_singleton], 1, by rw [ha]; rfl⟩

theorem Paged.analyses_eq_nil {result : Except Failure (Pass × Stats)}
    (h : Paged s position applied stats bs es result) : analyses es = [] := by
  induction h with
  | finished => rfl
  | threw sent => exact sent.analyses_eq_nil
  | refused sent => exact sent.analyses_eq_nil
  | @next _ _ _ _ _ bs _ _ _ sent rest ih =>
    rw [analyses_append, analyses_append, sent.analyses_eq_nil, ih]
    cases bs <;> rfl

/-- The answers that propose something are applied, in their order. -/
theorem Paged.applications_fst {result : Except Failure (Pass × Stats)}
    (h : Paged s position applied stats bs es result) :
    (applications es).map (·.1) = (proposed es).filter (· ≠ []) := by
  induction h with
  | finished => rfl
  | threw sent => exact sent.applications_fst
  | refused sent => exact sent.applications_fst
  | @next _ _ _ _ _ bs _ _ _ sent rest ih =>
    have quiet : applications (breath s bs) = [] ∧ proposed (breath s bs) = [] := by
      cases bs <;> exact ⟨rfl, rfl⟩
    simp only [applications_append, proposed_append, List.map_append, List.filter_append, quiet,
      sent.applications_fst, ih, List.map_nil, List.filter_nil]

/-- Every batch but the one that ends the iteration has all its fixes applied. -/
theorem Paged.applications_snd {result : Except Failure (Pass × Stats)}
    (h : Paged s position applied stats bs es result) :
    ∃ k, (applications es).map (·.2) = List.replicate k (.ok true) ++ closing result := by
  induction h with
  | finished => exact ⟨0, rfl⟩
  | threw sent => exact ⟨0, sent.of_error⟩
  | refused sent => exact ⟨0, sent.of_none⟩
  | @next _ _ _ _ _ bs _ _ _ sent rest ih =>
    have quiet : applications (breath s bs) = [] := by cases bs <;> rfl
    obtain ⟨k, hk⟩ := ih
    obtain ⟨-, j, hj⟩ := sent.of_some
    refine ⟨j + k, ?_⟩
    simp only [applications_append, List.map_append, quiet, List.nil_append, hk, hj,
      ← List.replicate_append_replicate, List.append_assoc]

theorem Paged.finished_eq {result : Except Failure (Pass × Stats)}
    (h : Paged s position applied stats bs es result) {m : Nat} {stats' : Stats}
    (hm : result = .ok (.finished m, stats')) : m = applied + (proposed es).flatten.length := by
  induction h with
  | finished => cases hm; rfl
  | threw sent => cases hm
  | refused sent => cases hm
  | @next _ applied n _ _ bs _ _ _ sent rest ih =>
    have quiet : proposed (breath s bs) = [] := by cases bs <;> rfl
    rw [ih hm, proposed_append, proposed_append, quiet, List.nil_append, List.flatten_append,
      List.length_append, sent.of_some.1, Nat.add_assoc]

end Batches

section Worked

variable {s : Session} {i : Nat} {stats : Stats} {es es' : List Exchange}
  {result : Except Failure (Pass × Stats)}

structure Outcome (es : List Exchange) (it : Iteration)
    (result : Except Failure (Pass × Stats)) : Prop where
  eq : ∃ options, es = .analysis options it.answer :: it.rest
  single : analyses it.rest = []
  found : ∃ a ds, it.answer = .ok a ∧ a.exitCode ≠ 0 ∧ .parsing a.output ds ∈ it.rest ∧ ds ≠ []
  parsed : ∀ output ds, .parsing output ds ∈ it.rest → ds ≠ []
  fst : (applications it.rest).map (·.1) = (proposed it.rest).filter (· ≠ [])
  snd : ∃ k, (applications it.rest).map (·.2) = List.replicate k (.ok true) ++ closing result
  total : ∀ m stats, result = .ok (.finished m, stats) → m = (proposed it.rest).flatten.length

theorem Sent.parsing_not_mem {b : Batch} {es : List Exchange} {result : Except Failure (Option Nat)}
    (h : Sent s b es result) (output : String) (ds : List Diagnostic) :
    .parsing output ds ∉ es := by
  cases h <;> simp

theorem Paged.parsing_not_mem {position applied : Nat} {bs : List Batch}
    (h : Paged s position applied stats bs es result) (output : String) (ds : List Diagnostic) :
    .parsing output ds ∉ es := by
  induction h with
  | finished => exact List.not_mem_nil
  | threw sent => exact sent.parsing_not_mem output ds
  | refused sent => exact sent.parsing_not_mem output ds
  | @next _ _ _ _ _ bs _ _ _ sent rest ih =>
    have quiet : .parsing output ds ∉ breath s bs := by cases bs <;> simp [breath]
    simp only [List.mem_append, sent.parsing_not_mem output ds, quiet, ih, or_self, not_false_eq_true]

theorem Worked.outcome (h : Worked s i stats es result) : ∃ it, Outcome es it result := by
  cases h with
  | @intro a ds es _ failing found paged =>
    refine ⟨⟨.ok a, .parsing a.output ds :: es⟩, ⟨_, rfl⟩, paged.analyses_eq_nil,
      ⟨a, ds, rfl, failing, List.mem_cons_self, found⟩, fun output ds' hmem => ?_,
      paged.applications_fst, paged.applications_snd, fun m stats' hm => ?_⟩
    · rcases List.mem_cons.1 hmem with h | h
      · cases h
        exact found
      · exact absurd h (paged.parsing_not_mem output ds')
    · have := paged.finished_eq hm
      rwa [Nat.zero_add] at this

namespace Outcome

variable {it : Iteration} (h : Outcome es it result)

include h

theorem iterations_append (h' : ∀ e ∈ es'.head?, e.analysis?.isSome) :
    iterations (es ++ es') = it :: iterations es' := by
  obtain ⟨options, rfl⟩ := h.eq
  exact iterations_cons_append options it.answer h.single h'

theorem iterations_eq : iterations es = [it] := by
  obtain ⟨options, rfl⟩ := h.eq
  exact iterations_cons options it.answer h.single

theorem applications_eq : applications es = applications it.rest := by
  obtain ⟨options, rfl⟩ := h.eq
  rfl

/-- What became of the fixes: they were applied, but for the ones that ended the iteration. -/
theorem mem_applications {fs : List Fix} {r : Except Failure Bool}
    (hmem : (fs, r) ∈ applications it.rest) : r = .ok true ∨ r ∈ closing result := by
  obtain ⟨k, hk⟩ := h.snd
  have hr : r ∈ List.replicate k (.ok true) ++ closing result := by
    rw [← hk]
    exact List.mem_map.2 ⟨_, hmem, rfl⟩
  rcases List.mem_append.1 hr with hr | hr
  · exact .inl (List.eq_of_mem_replicate hr)
  · exact .inr hr

theorem mem_closing {r : Except Failure Bool} (hr : r ∈ closing result) :
    ∃ fs, (fs, r) ∈ applications it.rest := by
  obtain ⟨k, hk⟩ := h.snd
  have hmem : r ∈ (applications it.rest).map (·.2) := by
    rw [hk]
    exact List.mem_append_right _ hr
  obtain ⟨⟨fs, _⟩, applied, rfl⟩ := List.mem_map.1 hmem
  exact ⟨fs, applied⟩

theorem failed_iff (f : Failure) :
    (∃ fs, (fs, .error f) ∈ applications it.rest) ↔ result = .error f := by
  constructor
  · rintro ⟨fs, hmem⟩
    rcases h.mem_applications hmem with hr | hr
    · cases hr
    · rcases result with g | ⟨m | batch, stats⟩
      · cases List.mem_singleton.1 hr
        rfl
      · cases hr
      · cases List.mem_singleton.1 hr
  · rintro rfl
    exact h.mem_closing (List.mem_singleton.2 rfl)

theorem refused_iff : (∃ fs, (applications it.rest).getLast? = some (fs, .ok false)) ↔
    ∃ batch stats, result = .ok (.failedAt batch, stats) := by
  constructor
  · rintro ⟨fs, last⟩
    rcases h.mem_applications (List.mem_of_getLast? last) with hr | hr
    · cases hr
    · rcases result with g | ⟨m | batch, stats⟩
      · cases List.mem_singleton.1 hr
      · cases hr
      · exact ⟨batch, stats, rfl⟩
  · rintro ⟨batch, stats, rfl⟩
    obtain ⟨k, hk⟩ := h.snd
    have last : ((applications it.rest).map (·.2)).getLast? = some (.ok false) := by
      rw [hk, closing, List.getLast?_append]
      rfl
    rw [List.getLast?_map, Option.map_eq_some_iff] at last
    obtain ⟨⟨fs, _⟩, last, rfl⟩ := last
    exact ⟨fs, last⟩

theorem idle_iff :
    (∀ fs ∈ proposed it.rest, fs = []) ↔ ∃ stats, result = .ok (.finished 0, stats) := by
  constructor
  · intro none
    have quiet : applications it.rest = [] := by
      rw [← List.map_eq_nil_iff (f := (·.1)), h.fst, List.filter_eq_nil_iff]
      intro fs hmem
      simp [none fs hmem]
    have open_end : ∀ r, r ∉ closing result := by
      intro r hr
      obtain ⟨fs, hmem⟩ := h.mem_closing hr
      rw [quiet] at hmem
      cases hmem
    have total := h.total
    rcases result with f | ⟨m | batch, stats⟩
    · exact absurd List.mem_cons_self (open_end (.error f))
    · obtain rfl : m = 0 := by
        rw [total m stats rfl, List.flatten_eq_nil_iff.2 none]
        rfl
      exact ⟨stats, rfl⟩
    · exact absurd List.mem_cons_self (open_end (.ok false))
  · rintro ⟨stats, rfl⟩ fs hmem
    have total := h.total 0 stats rfl
    exact List.flatten_eq_nil_iff.1 (List.length_eq_zero_iff.1 total.symm) fs hmem

theorem productive_iff : it.Productive ↔ ∃ n stats, result = .ok (.finished (n + 1), stats) := by
  constructor
  · rintro ⟨-, ⟨fs, some, hmem⟩, all⟩
    have open_end : ∀ r ∈ closing result, r = .ok true := by
      intro r hr
      obtain ⟨fs, hmem⟩ := h.mem_closing hr
      exact all _ hmem
    have proposal : fs ∈ proposed it.rest := by
      have : fs ∈ (applications it.rest).map (·.1) := List.mem_map.2 ⟨_, hmem, rfl⟩
      rw [h.fst] at this
      exact (List.mem_filter.1 this).1
    have total := h.total
    rcases result with f | ⟨(_ | n) | batch, stats⟩
    · cases open_end _ List.mem_cons_self
    · have none := List.flatten_eq_nil_iff.1 (List.length_eq_zero_iff.1 (total 0 stats rfl).symm)
      exact absurd (none fs proposal) some
    · exact ⟨n, stats, rfl⟩
    · cases open_end _ List.mem_cons_self
  · rintro ⟨n, stats, rfl⟩
    have total := h.total (n + 1) stats rfl
    refine ⟨h.found, ?_, fun ⟨fs, r⟩ hmem => ?_⟩
    · have : ¬ ∀ fs ∈ proposed it.rest, fs = [] := by
        intro none
        rw [List.flatten_eq_nil_iff.2 none] at total
        cases total
      obtain ⟨fs, this⟩ := Classical.not_forall.1 this
      obtain ⟨proposal, some⟩ := Classical.not_imp.1 this
      have : fs ∈ (applications it.rest).map (·.1) := by
        rw [h.fst]
        exact List.mem_filter.2 ⟨proposal, decide_eq_true some⟩
      obtain ⟨⟨_, r⟩, hmem, rfl⟩ := List.mem_map.1 this
      rcases h.mem_applications hmem with rfl | hr
      · exact ⟨_, some, hmem⟩
      · cases hr
    · rcases h.mem_applications hmem with hr | hr
      · exact hr
      · cases hr

theorem analyses_eq : analyses es = [it.answer] := by
  obtain ⟨options, rfl⟩ := h.eq
  change it.answer :: analyses it.rest = _
  rw [h.single]

theorem not_endsClean : ¬ EndsClean es := by
  rintro ⟨_, a, last, ha, passing⟩
  obtain ⟨a', ds, ha', failing, -⟩ := h.found
  rw [h.iterations_eq] at last
  cases last
  cases ha.symm.trans ha'
  exact failing passing

theorem endsStuck_iff : EndsStuck es ↔ ∃ stats, result = .ok (.finished 0, stats) := by
  rw [← h.idle_iff]
  constructor
  · rintro ⟨_, a, last, -, -, nothing⟩
    rw [h.iterations_eq] at last
    cases last
    exact nothing.resolve_left fun hmem => h.parsed _ _ hmem rfl
  · intro none
    obtain ⟨a, ds, ha, failing, -⟩ := h.found
    exact ⟨it, a, by rw [h.iterations_eq]; rfl, ha, failing, .inr none⟩

theorem endsAborted_iff :
    EndsAborted es ↔ ∃ batch stats, result = .ok (.failedAt batch, stats) := by
  rw [← h.refused_iff, EndsAborted, h.applications_eq, h.analyses_eq]
  refine ⟨fun ended => ended.resolve_left ?_, .inr⟩
  rintro ⟨binary, why, last⟩
  obtain ⟨a, ds, ha, -⟩ := h.found
  rw [ha] at last
  cases last

theorem endsExhausted_iff (budget : Nat) : EndsExhausted budget es ↔
    budget = 1 ∧ ∃ n stats, result = .ok (.finished (n + 1), stats) := by
  rw [← h.productive_iff, EndsExhausted, h.iterations_eq]
  simp [eq_comm]

theorem fails_iff (f : Failure) : Fails f es ↔ result = .error f := by
  rw [← h.failed_iff, Fails, h.applications_eq, h.analyses_eq]
  refine ⟨fun failed => failed.resolve_left ?_, .inr⟩
  rintro ⟨hmem, -⟩
  obtain ⟨a, ds, ha, -⟩ := h.found
  rw [ha] at hmem
  cases List.mem_singleton.1 hmem

section Next

variable {n : Nat} (begins : ∀ e ∈ es'.head?, e.analysis?.isSome) (more : iterations es' ≠ [])

include begins more

theorem getLast?_iterations_append :
    (iterations (es ++ es')).getLast? = (iterations es').getLast? := by
  rw [h.iterations_append begins, List.getLast?_cons_of_ne_nil more]

theorem endsClean_append : EndsClean (es ++ es') ↔ EndsClean es' := by
  rw [EndsClean, h.getLast?_iterations_append begins more, EndsClean]

theorem endsStuck_append : EndsStuck (es ++ es') ↔ EndsStuck es' := by
  rw [EndsStuck, h.getLast?_iterations_append begins more, EndsStuck]

variable (ok : result = .ok (.finished (n + 1), stats))

include ok

omit begins more in
theorem eq_of_mem_applications {fs : List Fix} {r : Except Failure Bool}
    (hmem : (fs, r) ∈ applications it.rest) : r = .ok true := by
  rcases h.mem_applications hmem with hr | hr
  · exact hr
  · subst ok
    cases hr

theorem endsAborted_append : EndsAborted (es ++ es') ↔ EndsAborted es' := by
  have last : (analyses (es ++ es')).getLast? = (analyses es').getLast? := by
    rw [← map_answer_iterations, ← map_answer_iterations, List.getLast?_map, List.getLast?_map,
      h.getLast?_iterations_append begins more]
  rw [EndsAborted, EndsAborted, last, applications_append, List.getLast?_append, h.applications_eq]
  refine or_congr_right (exists_congr fun fs => ?_)
  cases (applications es').getLast? with
  | some p => rfl
  | none =>
    refine ⟨fun hlast => ?_, fun hlast => by cases hlast⟩
    cases h.eq_of_mem_applications ok (List.mem_of_getLast? hlast)

omit more in
theorem endsExhausted_append (budget : Nat) :
    EndsExhausted (budget + 1) (es ++ es') ↔ EndsExhausted budget es' := by
  have productive : it.Productive := h.productive_iff.2 ⟨n, stats, ok⟩
  simp [EndsExhausted, h.iterations_append begins, productive]

omit begins more in
theorem fails_append (f : Failure) : Fails f (es ++ es') ↔ Fails f es' := by
  obtain ⟨a, ds, ha, -⟩ := h.found
  simp only [Fails, analyses_append, applications_append, h.analyses_eq, h.applications_eq, ha,
    List.mem_append, List.mem_singleton, reduceCtorEq, false_or]
  refine or_congr_right (exists_congr fun fs => or_iff_right fun hmem => ?_)
  cases h.eq_of_mem_applications ok hmem

end Next

end Outcome
end Worked

section Single

/-! One analysis, and nothing applied after it. -/

variable {options : Option AnalysisOptions} {answer : Except Failure Analysis}
  {rest : List Exchange} (single : analyses rest = [])

include single

theorem analyses_single : analyses (.analysis options answer :: rest) = [answer] :=
  congrArg (answer :: ·) single

theorem endsClean_single :
    EndsClean (.analysis options answer :: rest) ↔ ∃ a, answer = .ok a ∧ a.exitCode = 0 := by
  simp [EndsClean, iterations_cons options answer single]

theorem endsStuck_single : EndsStuck (.analysis options answer :: rest) ↔
    ∃ a, answer = .ok a ∧ a.exitCode ≠ 0 ∧
      (.parsing a.output [] ∈ rest ∨ ∀ fs ∈ proposed rest, fs = []) := by
  simp [EndsStuck, iterations_cons options answer single]

variable (quiet : applications rest = [])

include quiet

theorem endsAborted_single : EndsAborted (.analysis options answer :: rest) ↔
    ∃ binary why, answer = .error (.unavailable binary why) := by
  have none : applications (.analysis options answer :: rest) = [] := quiet
  simp [EndsAborted, analyses_single single, none]

/-- An analysis after which nothing is applied is no productive iteration. -/
theorem not_endsExhausted_single (budget : Nat) :
    ¬ EndsExhausted budget (.analysis options answer :: rest) := by
  rintro ⟨-, all⟩
  rw [iterations_cons options answer single] at all
  obtain ⟨-, ⟨fs, -, hmem⟩, -⟩ := all _ List.mem_cons_self
  rw [quiet] at hmem
  cases hmem

theorem fails_single (f : Failure) : Fails f (.analysis options answer :: rest) ↔
    answer = .error f ∧ ∀ binary why, f ≠ .unavailable binary why := by
  have none : applications (.analysis options answer :: rest) = [] := quiet
  simp [Fails, analyses_single single, none, eq_comm]

end Single

section Course

variable {s : Session} {i left : Nat} {stats : Stats} {es : List Exchange}
  {result : Except Failure RunReport}

theorem Worked.begins {result : Except Failure (Pass × Stats)} (h : Worked s i stats es result) :
    ∃ options answer es', es = .analysis options answer :: es' := by
  cases h
  exact ⟨_, _, _, rfl⟩

theorem Course.begins (h : Course s i left stats es result) :
    ∃ options answer es', es = .analysis options answer :: es' := by
  cases h with
  | unavailable | threw | clean | unparsed => exact ⟨_, _, _, rfl⟩
  | broken worked | refused worked | idle worked | spent worked => exact worked.begins
  | next worked =>
    obtain ⟨options, answer, es', rfl⟩ := worked.begins
    exact ⟨_, _, _, rfl⟩

theorem Course.verdict (h : Course s i left stats es result) : Verdict (left + 1) es result := by
  induction h with
  | unavailable | threw | clean =>
    have single : analyses [] = [] := rfl
    have quiet : applications [] = [] := rfl
    constructor <;>
      simp [analyses_single single, endsClean_single single, endsStuck_single single,
        endsAborted_single single quiet, not_endsExhausted_single single quiet,
        fails_single single quiet, statusOf, RunReport.status, RunReport.success, Ending.status, *]
  | @unparsed _ _ _ a failing =>
    have single : analyses [.parsing a.output []] = [] := rfl
    have quiet : applications [.parsing a.output []] = [] := rfl
    constructor <;>
      simp [analyses_single single, endsClean_single single, endsStuck_single single,
        endsAborted_single single quiet, not_endsExhausted_single single quiet,
        fails_single single quiet, statusOf, RunReport.status, RunReport.success, Ending.status,
        failing]
  | broken worked | refused worked | idle worked | spent worked =>
    obtain ⟨it, h⟩ := worked.outcome
    constructor <;>
      simp [h.analyses_eq, h.not_endsClean, h.endsStuck_iff, h.endsAborted_iff, h.endsExhausted_iff,
        h.fails_iff, statusOf, RunReport.status, RunReport.success, Ending.status]
  | next worked rest ih =>
    obtain ⟨it, h⟩ := worked.outcome
    obtain ⟨options, answer, es', rfl⟩ := rest.begins
    have begins : ∀ e ∈ (Exchange.analysis options answer :: es').head?, e.analysis?.isSome := by
      rintro _ ⟨⟩
      rfl
    have more : iterations (.analysis options answer :: es') ≠ [] := List.cons_ne_nil _ _
    -- a productive iteration decides nothing: what the rest comes to, the whole comes to
    exact
      { within := by
          rw [analyses_append, h.analyses_eq, List.length_append, Nat.add_comm]
          exact Nat.succ_le_succ ih.within
        converged := ih.converged.trans (h.endsClean_append begins more).symm
        success := ih.success.trans (h.endsClean_append begins more).symm
        stuck := ih.stuck.trans (h.endsStuck_append begins more).symm
        aborted := ih.aborted.trans (h.endsAborted_append begins more rfl).symm
        exhausted := ih.exhausted.trans (h.endsExhausted_append begins rfl _).symm
        failed := fun f => (ih.failed f).trans (h.fails_append rfl f).symm }

end Course

/-- What a session comes to is told by what happened in it. -/
theorem run_verdict {σ : Type} (s : Session) (crew : Crew σ) (stats : Stats) (x : σ) :
    Verdict s.maxIterations (s.exchanges crew stats x) ((s.run crew stats).run x).1 := by
  have verdict := (run_course s crew stats x).verdict
  rwa [Nat.sub_add_cancel s.maxIterations_pos] at verdict

end Session
end Mender
