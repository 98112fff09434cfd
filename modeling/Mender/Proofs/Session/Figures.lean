import Mender.Proofs.Number.Whole
import Mender.Proofs.Session.LineNumbers
import Mender.Proofs.Session.Status
import Mender.Proofs.Session.Turns

/-! What the figures of a run come to, told by what happened in it. Every batch counts but one whose fixes
could not be applied; fixes and categories count where all fixes for a batch were applied. -/

namespace Mender

/-- What became of a figure to which these amounts were added, one after the other. -/
structure Number.Totals (x : Number) (amounts : List Nat) (y : Number) : Prop where
  steps : y = x.total amounts
  exact : ∀ a, x = .ofNat a → a + amounts.sum ≤ 2 ^ 53 → y = .ofNat (a + amounts.sum)

theorem Number.totals_of_eq {x y : Number} {amounts : List Nat} (steps : y = x.total amounts) :
    x.Totals amounts y := by
  refine ⟨steps, fun a whole within => ?_⟩
  rw [steps, whole, total_ofNat within]

namespace Stats

/-- The count of a category. One that was never counted has none. -/
def countOf (counts : List (Category × Number)) (c : Category) : Number := (counts.lookup c).getD 0

def countAll (counts : List (Category × Number)) (cs : List Category) : List (Category × Number) :=
  cs.foldl (fun counts c => count c counts) counts

theorem countAll_append (counts : List (Category × Number)) (cs cs' : List Category) :
    countAll counts (cs ++ cs') = countAll (countAll counts cs) cs' := List.foldl_append

theorem countOf_count (c c' : Category) (counts : List (Category × Number)) :
    countOf (count c counts) c' =
      if c = c' then countOf counts c' + .ofNat 1 else countOf counts c' := by
  unfold countOf
  induction counts with
  | nil =>
    by_cases h : c = c'
    · subst h
      simp only [count, List.lookup_cons, List.lookup_nil, beq_self_eq_true, Option.getD_some, Option.getD_none, if_true]
      exact (Number.ofNat_add_ofNat (a := 0) (b := 1) (by decide)).symm
    · simp [count, List.lookup_cons, beq_false_of_ne (Ne.symm h), h]
  | cons e es ih =>
    obtain ⟨k, n⟩ := e
    simp only [count]
    split
    case isTrue hk =>
      subst hk
      by_cases h : k = c'
      · subst h
        simp only [List.lookup_cons, beq_self_eq_true, Option.getD_some, if_true]
        rfl
      · simp [List.lookup_cons, beq_false_of_ne (Ne.symm h), h]
    case isFalse hk =>
      by_cases h : c' = k
      · subst h
        simp [Ne.symm hk]
      · simpa [List.lookup_cons, beq_false_of_ne h] using ih

theorem countOf_countAll (cs : List Category) (c : Category) (counts : List (Category × Number)) :
    countOf (countAll counts cs) c = (countOf counts c).total (List.replicate (cs.count c) 1) := by
  induction cs generalizing counts with
  | nil => rfl
  | cons c' cs ih =>
    change countOf (countAll (count c' counts) cs) c = _
    rw [ih, countOf_count]
    split
    case isTrue h => rw [h, List.count_cons_self, List.replicate_succ, Number.total_cons]
    case isFalse h => rw [List.count_cons_of_ne h]

theorem mem_of_mem_count {c : Category} {counts : List (Category × Number)} {c' : Category}
    (h : c' ∈ (count c counts).map (·.1)) : c' = c ∨ c' ∈ counts.map (·.1) := by
  induction counts with
  | nil => exact .inl (List.mem_singleton.1 h)
  | cons e es ih =>
    rw [count] at h
    split at h
    case isTrue hk =>
      refine .inr ?_
      rw [List.map_cons, hk]
      exact h
    case isFalse =>
      rcases List.mem_cons.1 h with rfl | h
      · exact .inr List.mem_cons_self
      · exact (ih h).imp_right (List.mem_cons_of_mem _)

/-- Only what is counted appears among the counts. -/
theorem mem_of_mem_countAll {cs : List Category} {counts : List (Category × Number)} {c : Category}
    (h : c ∈ (countAll counts cs).map (·.1)) : c ∈ counts.map (·.1) ∨ c ∈ cs := by
  induction cs generalizing counts with
  | nil => exact .inl h
  | cons c' cs ih =>
    rcases ih h with h | h
    · rcases mem_of_mem_count h with rfl | h
      · exact .inr List.mem_cons_self
      · exact .inl h
    · exact .inr (List.mem_cons_of_mem _ h)

end Stats

namespace Session

def accepted (es : List Exchange) : List (List Fix) :=
  (applications es).filterMap fun p => if p.2.toOption = some true then some p.1 else none

def mended : List Exchange → List Request
  | .consultation request _ :: .application _ (.ok true) :: es => request :: mended es
  | _ :: es => mended es
  | [] => []

def mendedCategories (es : List Exchange) : List Category :=
  (mended es).flatMap fun r => r.toBatch.diagnostics.map Diagnostic.category

def completed (es : List Exchange) : Nat := (analyses es).countP fun answer => answer.toOption.isSome

end Session

/-- How many batches an ending leaves out of the figures. -/
def Ending.refusals : Ending → Nat
  | .applyFailed .. => 1
  | _ => 0

def Pass.refusals : Pass → Nat
  | .failedAt _ => 1
  | .finished _ => 0

namespace Session

/-- How the figures of a report come about: from those before, by what happened. -/
structure Accounts (before : Stats) (es : List Exchange) (report : RunReport) : Prop where
  batches : ∃ n, n + report.ending.refusals = (requests es).length ∧
    before.batchesProcessed.Totals (List.replicate n 1) report.stats.batchesProcessed
  fixes : before.fixesApplied.Totals ((accepted es).map List.length) report.stats.fixesApplied
  counts : ∀ c, (Stats.countOf before.counts c).Totals
    (List.replicate ((mendedCategories es).count c) 1) (Stats.countOf report.stats.counts c)
  categories : ∀ c ∈ report.stats.counts.map (·.1),
    c ∈ before.counts.map (·.1) ∨ c ∈ mendedCategories es
  /-- Each call that applied fixes was made for one of the requests. -/
  mended : (mended es).length = (accepted es).length
  iterations : report.stats.iterations =
    if completed es = 0 then before.iterations else .ofNat (completed es)

/-- What the exchanges add to the figures, if so many batches of theirs are left out. -/
structure Tallied (before : Stats) (es : List Exchange) (refusals : Nat) (after : Stats) : Prop where
  batches : ∃ n, n + refusals = (requests es).length ∧
    after.batchesProcessed = before.batchesProcessed.total (List.replicate n 1)
  fixes : after.fixesApplied = before.fixesApplied.total ((accepted es).map List.length)
  counts : after.counts = Stats.countAll before.counts (mendedCategories es)
  mended : (mended es).length = (accepted es).length

section Lists

variable {es es' : List Exchange}

theorem accepted_append : accepted (es ++ es') = accepted es ++ accepted es' := by
  rw [accepted, applications_append, List.filterMap_append]
  rfl

theorem completed_append : completed (es ++ es') = completed es + completed es' := by
  rw [completed, analyses_append, List.countP_append]
  rfl

/-- Exchanges that do not begin in the middle of a batch. -/
def Apart (es : List Exchange) : Prop := ∀ e ∈ es.head?, e.application? = none

theorem mended_append (apart : Apart es') : mended (es ++ es') = mended es ++ mended es' := by
  fun_induction mended es with
  | case1 request answer fixes es ih => simp [mended, ih]
  | case2 e es other ih =>
    rw [← ih, List.cons_append]
    cases es with
    | nil =>
      cases es' with
      | nil => simp [mended]
      | cons e' es' =>
        have single : e'.application? = none := apart e' rfl
        cases e' with
        | application => cases single
        | _ => cases e <;> simp [mended]
    | cons e' es =>
      refine mended.eq_2 _ _ fun request answer fixes rest he hes => ?_
      obtain ⟨rfl, -⟩ := List.cons.inj hes
      exact other request answer fixes es he rfl
  | case3 => rfl

theorem mendedCategories_append (apart : Apart es') :
    mendedCategories (es ++ es') = mendedCategories es ++ mendedCategories es' := by
  rw [mendedCategories, mended_append apart, List.flatMap_append]
  rfl

end Lists

section Tallied

variable {s : Session} {b : Batch} {bs : List Batch} {es es' : List Exchange}
  {before between after : Stats} {refusals : Nat}

theorem Tallied.append (h : Tallied before es 0 between) (apart : Apart es')
    (h' : Tallied between es' refusals after) : Tallied before (es ++ es') refusals after where
  batches := by
    obtain ⟨n, hn, first⟩ := h.batches
    obtain ⟨n', hn', second⟩ := h'.batches
    refine ⟨n + n', ?_, ?_⟩
    · rw [requests_append, List.length_append, ← hn, ← hn']
      omega
    · rw [second, first, ← Number.total_append, List.replicate_append_replicate]
  fixes := by
    rw [h'.fixes, h.fixes, ← Number.total_append, accepted_append, List.map_append]
  counts := by
    rw [h'.counts, h.counts, ← Stats.countAll_append, mendedCategories_append apart]
  mended := by
    rw [mended_append apart, accepted_append, List.length_append, List.length_append, h.mended, h'.mended]

/-- Exchanges in which no request is sent and nothing is applied leave the figures as they are. -/
theorem tallied_of_quiet (none : requests es = []) (quiet : applications es = [])
    (unmended : mended es = []) : Tallied before es 0 before where
  batches := ⟨0, by rw [none]; rfl, rfl⟩
  fixes := by simp [accepted, quiet]
  counts := by simp [mendedCategories, unmended, Stats.countAll]
  mended := by simp [unmended, accepted, quiet]

theorem tallied_breath (s : Session) (bs : List Batch) : Tallied before (breath s bs) 0 before := by
  unfold breath
  split <;> exact tallied_of_quiet rfl rfl rfl

/-- A batch with some of its fixes applied counts with what its diagnostics are about, one without counts
as processed. -/
theorem Sent.tallied {n : Nat} (h : Sent s b es (.ok (some n))) :
    Tallied before es 0 (before.record b.diagnostics (.ofNat n)) := by
  have counted (contents : List (String × String)) (cs : List (Category × Number)) :
      b.diagnostics.foldl (fun counts d => Stats.count d.category counts) cs =
        Stats.countAll cs ((Request.ofBatch b contents s.project.toText).toBatch.diagnostics.map
          Diagnostic.category) := by
    rw [Stats.countAll, List.foldl_map]
    rfl
  generalize hr : (Except.ok (some n) : Except Failure (Option Nat)) = result at h
  cases h with
  | nothing =>
    cases hr
    rw [Stats.record, if_pos (Number.ofNat_eq_zero_iff.2 rfl)]
    exact ⟨⟨1, rfl, rfl⟩, rfl, rfl, rfl⟩
  | @tried contents answer some outcome =>
    rcases outcome with f | _ | _
    · cases hr
    · cases hr
    · cases hr
      have positive : Number.ofNat (proposals answer).length ≠ 0 := by
        rw [Ne, Number.ofNat_eq_zero_iff, List.length_eq_zero_iff]
        exact some
      rw [Stats.record, if_neg positive]
      refine ⟨⟨1, rfl, rfl⟩, ?_, ?_, rfl⟩
      · change _ = before.fixesApplied.total [(proposals answer).length]
        rw [Number.total_cons, Number.total_nil]
      · simp [mendedCategories, mended, counted contents]

/-- A batch whose fixes could not be applied leaves the figures as they are. -/
theorem Sent.tallied_refused (h : Sent s b es (.ok none)) : Tallied before es 1 before := by
  generalize hr : (Except.ok none : Except Failure (Option Nat)) = result at h
  cases h with
  | nothing => cases hr
  | tried some outcome =>
    rcases outcome with f | _ | _
    · cases hr
    · exact ⟨⟨0, rfl, rfl⟩, rfl, rfl, rfl⟩
    · cases hr

theorem Sent.apart {result : Except Failure (Option Nat)} (h : Sent s b es result) : Apart es := by
  cases h <;>
  · rintro _ ⟨⟩
    rfl

theorem Paged.apart {position applied : Nat} {stats : Stats} {result : Except Failure (Pass × Stats)}
    (h : Paged s position applied stats bs es result) : Apart es := by
  cases h with
  | finished => exact fun _ h => absurd h (by simp)
  | threw sent | refused sent => exact sent.apart
  | next sent =>
    obtain ⟨v, rfl, -⟩ := sent.visit
    rintro _ ⟨⟩
    rfl

theorem apart_breath_append (apart : Apart es) (bs : List Batch) : Apart (breath s bs ++ es) := by
  cases bs with
  | nil => exact apart
  | cons =>
    rintro _ ⟨⟩
    rfl

theorem Paged.tallied {position applied : Nat} {stats after : Stats} {pass : Pass}
    {result : Except Failure (Pass × Stats)} (h : Paged s position applied stats bs es result)
    (hr : result = .ok (pass, after)) : Tallied stats es pass.refusals after := by
  induction h with
  | finished =>
    cases hr
    exact tallied_of_quiet rfl rfl rfl
  | threw => cases hr
  | refused sent =>
    cases hr
    exact sent.tallied_refused
  | next sent rest ih =>
    exact sent.tallied.append (apart_breath_append rest.apart _)
      ((tallied_breath s _).append rest.apart (ih hr))

theorem Paged.iterations_eq {position applied : Nat} {stats after : Stats} {pass : Pass}
    {result : Except Failure (Pass × Stats)} (h : Paged s position applied stats bs es result)
    (hr : result = .ok (pass, after)) : after.iterations = stats.iterations := by
  induction h with
  | finished | refused =>
    cases hr
    rfl
  | threw => cases hr
  | next sent rest ih =>
    rw [ih hr, Stats.record]
    split <;> rfl

theorem Worked.tallied {i : Nat} {stats : Stats} {pass : Pass}
    (h : Worked s i stats es (.ok (pass, after))) : Tallied stats es pass.refusals after := by
  generalize hr : (Except.ok (pass, after) : Except Failure (Pass × Stats)) = result at h
  cases h with
  | @intro a ds es _ failing found paged =>
    have analyzed : Tallied stats [.analysis s.analysis (.ok a), .parsing a.output ds] 0
        { stats with iterations := .ofNat i } := ⟨⟨0, rfl, rfl⟩, rfl, rfl, rfl⟩
    exact analyzed.append paged.apart (paged.tallied hr.symm)

theorem Worked.iterations_eq {i : Nat} {stats : Stats} {pass : Pass}
    (h : Worked s i stats es (.ok (pass, after))) : after.iterations = .ofNat i := by
  generalize hr : (Except.ok (pass, after) : Except Failure (Pass × Stats)) = result at h
  cases h with
  | intro _ _ paged => exact paged.iterations_eq hr.symm

theorem completed_of_ok {options : Option AnalysisOptions} {a : Analysis} (single : analyses es = []) :
    completed (.analysis options (.ok a) :: es) = 1 := by
  rw [completed, analyses_single single]
  rfl

theorem Worked.completed_eq {i : Nat} {stats : Stats} {result : Except Failure (Pass × Stats)}
    (h : Worked s i stats es result) : completed es = 1 := by
  obtain ⟨it, outcome⟩ := h.outcome
  obtain ⟨a, ds, ha, -⟩ := outcome.found
  rw [completed, outcome.analyses_eq, ha]
  rfl

theorem Course.apart {i left : Nat} {stats : Stats} {result : Except Failure RunReport}
    (h : Course s i left stats es result) : Apart es := by
  obtain ⟨options, answer, rest, rfl⟩ := h.begins
  rintro _ ⟨⟩
  rfl

theorem Course.tallied {i left : Nat} {stats : Stats} {report : RunReport}
    {result : Except Failure RunReport} (h : Course s i left stats es result) (hr : result = .ok report) :
    Tallied stats es report.ending.refusals report.stats := by
  induction h with
  | unavailable | clean | unparsed =>
    cases hr
    exact ⟨⟨0, rfl, rfl⟩, rfl, rfl, rfl⟩
  | threw | broken => cases hr
  | refused worked | idle worked | spent worked =>
    cases hr
    exact worked.tallied
  | next worked rest ih => exact worked.tallied.append rest.apart (ih hr)

theorem Course.iterations_eq {i left : Nat} {stats : Stats} {report : RunReport}
    {result : Except Failure RunReport} (h : Course s i left stats es result) (hr : result = .ok report) :
    report.stats.iterations =
      if completed es = 0 then stats.iterations else .ofNat (i + completed es - 1) := by
  induction h with
  | unavailable =>
    cases hr
    rfl
  | @clean _ _ _ a | @unparsed _ _ _ a =>
    cases hr
    rw [completed_of_ok rfl, if_neg Nat.one_ne_zero, Nat.add_sub_cancel]
  | threw | broken => cases hr
  | refused worked | idle worked | spent worked =>
    cases hr
    simp [worked.iterations_eq, worked.completed_eq]
  | next worked rest ih =>
    rw [ih hr, completed_append, worked.completed_eq, worked.iterations_eq]
    split
    case isTrue none => simp [none]
    case isFalse some =>
      rw [if_neg (by omega)]
      congr 1
      omega

end Tallied

/-- The figures of a report account for the run. -/
theorem run_accounts {σ : Type} (s : Session) (crew : Crew σ) (stats : Stats) (x : σ) {report : RunReport}
    (h : ((s.run crew stats).run x).1 = .ok report) :
    Accounts stats (s.exchanges crew stats x) report := by
  have course := run_course s crew stats x
  have tallied := course.tallied h
  obtain ⟨n, counted, batches⟩ := tallied.batches
  have counts (c : Category) := Stats.countOf_countAll (mendedCategories (s.exchanges crew stats x)) c
    stats.counts
  exact
    { batches := ⟨n, counted, Number.totals_of_eq batches⟩
      fixes := Number.totals_of_eq tallied.fixes
      counts := fun c => Number.totals_of_eq (tallied.counts ▸ counts c)
      categories := fun c hc => Stats.mem_of_mem_countAll (tallied.counts ▸ hc)
      mended := tallied.mended
      iterations := by simpa using course.iterations_eq h }

end Session

theorem eq_ok_of_toOption {α : Type} {e : Except Failure α} {a : α} (h : e.toOption = some a) :
    e = .ok a := by
  cases e with
  | error => cases h
  | ok b => rw [Option.some.inj h]

/-- In the run in which a line is put in, one fix is applied and two batches are processed. -/
theorem Drift.accounts :
    Session.Accounts .zero (session.exchanges crew .zero tree)
      ⟨.budgetSpent 1, ⟨1, 1, 2, [(.other, 1)]⟩⟩ :=
  Session.run_accounts session crew .zero tree (eq_ok_of_toOption (by decide +kernel))

/-- The batches processed come to the number of requests, added at once. -/
def Session.BatchesAddUp (before : Stats) (es : List Exchange) (report : RunReport) : Prop :=
  ∃ n, n + report.ending.refusals = (requests es).length ∧
    report.stats.batchesProcessed = before.batchesProcessed + .ofNat n

namespace Standstill

/-! Two batches that are processed with 2^53 before them. Each of them leaves the figure as it is, since
the number after 2^53 is 2^53 + 2. -/

def crew : Crew Tree :=
  .ofTree Drift.session.project ⟨"", 1⟩ [Drift.first, Drift.second] fun _ => ⟨.success, "", []⟩

def stats : Stats := ⟨0, 0, .ofNat (2 ^ 53), []⟩

def report : RunReport := ⟨.nothingApplied 1, ⟨1, 0, .ofNat (2 ^ 53), []⟩⟩

theorem not_batchesAddUp :
    ((Drift.session.run crew stats).run Drift.tree).1 = .ok report ∧
      ¬ Session.BatchesAddUp stats (Drift.session.exchanges crew stats Drift.tree) report := by
  refine ⟨eq_ok_of_toOption (by decide +kernel), ?_⟩
  rintro ⟨n, hn, sum⟩
  have two : (requests (Drift.session.exchanges crew stats Drift.tree)).length = 2 := by decide +kernel
  obtain rfl : n = 2 := hn.trans two
  exact absurd sum (by decide +kernel)

end Standstill
end Mender
