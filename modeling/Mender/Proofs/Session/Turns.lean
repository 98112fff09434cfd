import Mender.Proofs.Batch.Pages
import Mender.Proofs.Session.Sendings

/-! Which calls a session makes, and in which order: it takes turns. A turn is one analysis and the pages
of what it found, one after the other. A turn that no page brings to a halt sends every diagnostic that
was found, each in one request. -/

namespace Mender

namespace Exchange

def request? : Exchange → Option Request
  | .consultation request _ => some request
  | _ => none

end Exchange

def requests (es : List Exchange) : List Request := es.filterMap Exchange.request?

def sent (es : List Exchange) : List Diagnostic := (requests es).flatMap fun r => r.toBatch.diagnostics

/-- What came of one page: what its files were found to hold, what the oracle answered, and what applying
its fixes comes to, if it proposes any. -/
structure Visit where
  contents : List (String × String)
  answer : Except Failure Response
  outcome : Except Failure Bool

namespace Visit

/-- Everything that was proposed was applied. -/
def Passed (v : Visit) : Prop := proposals v.answer = [] ∨ v.outcome.toOption = some true

instance (v : Visit) : Decidable v.Passed := by unfold Passed; infer_instance

def exchanges (s : Session) (b : Batch) (v : Visit) : List Exchange :=
  [.reading b.groups.files v.contents,
      .consultation (.ofBatch b v.contents s.project.toText) v.answer] ++
    if proposals v.answer = [] then [] else [.application (proposals v.answer) v.outcome]

end Visit

/-- All of these pages were visited, and none of them brought things to a halt. -/
structure Through (bs : List Batch) (vs : List Visit) : Prop where
  all : vs.length = bs.length
  passed : ∀ v ∈ vs, v.Passed

/-- The pages were visited up to number `i`, which brought things to a halt. -/
structure HaltsAt (bs : List Batch) (vs : List Visit) (i : Nat) : Prop where
  page : i < bs.length
  last : vs.length = i + 1
  passed : ∀ v ∈ vs.take i, v.Passed
  failed : ∀ v ∈ vs[i]?, ¬ v.Passed

inductive Turn where
  | unanswered (f : Failure)
  | clean (a : Analysis) (passing : a.exitCode = 0)
  | worked (a : Analysis) (failing : a.exitCode ≠ 0) (found : List Diagnostic) (visits : List Visit)

namespace Turn

def found : Turn → List Diagnostic
  | .worked _ _ found _ => found
  | _ => []

def visits : Turn → List Visit
  | .worked _ _ _ visits => visits
  | _ => []

def pages (s : Session) (t : Turn) : List Batch := Batch.pages t.found s.pageSize

end Turn

namespace Session

/-- The exchanges over these pages, as far as the visits go. Between two pages there is a pause. -/
def rounds (s : Session) : List Batch → List Visit → List Exchange
  | b :: bs, v :: vs =>
    v.exchanges s b ++
      ((if bs ≠ [] ∧ v.Passed then [.pause (s.batchDelay.getD 0)] else []) ++ s.rounds bs vs)
  | _, _ => []

end Session

def Turn.exchanges (s : Session) : Turn → List Exchange
  | .unanswered f => [.analysis s.analysis (.error f)]
  | .clean a _ => [.analysis s.analysis (.ok a)]
  | .worked a _ found visits =>
    .analysis s.analysis (.ok a) :: .parsing a.output found ::
      s.rounds (Batch.pages found s.pageSize) visits

/-- How a pass over these pages left the visits: all of them made, or one of them its last. -/
def Visited (bs : List Batch) (vs : List Visit) : Except Failure (Pass × Stats) → Prop
  | .ok (.finished _, _) => Through bs vs
  | _ => ∃ i, HaltsAt bs vs i

/-- The calls of a session, taken apart into turns. Only the last one may have been brought to a halt. -/
structure InTurns (s : Session) (es : List Exchange) (turns : List Turn) : Prop where
  spelled : es = turns.flatMap (Turn.exchanges s)
  some : turns ≠ []
  through : ∀ t ∈ turns.dropLast, Through (t.pages s) t.visits
  ended : ∀ t ∈ turns.getLast?, Through (t.pages s) t.visits ∨ ∃ i, HaltsAt (t.pages s) t.visits i

/-- What a turn sends of what it has found: a request for each page visited, and in them everything, or
the pages up to the one that brought it to a halt. -/
structure Delivers (s : Session) (t : Turn) : Prop where
  pages : (requests (t.exchanges s)).map Request.toBatch = (t.pages s).take t.visits.length
  whole : Through (t.pages s) t.visits → (sent (t.exchanges s)).Perm t.found
  part : ∀ i, HaltsAt (t.pages s) t.visits i →
    sent (t.exchanges s) = ((t.pages s).take (i + 1)).flatMap Batch.diagnostics

/-- Nothing is called after fixes that could not be applied. -/
def SilentAfterFailure (es : List Exchange) : Prop :=
  ∀ before fixes answer after, es = before ++ .application fixes answer :: after →
    answer.toOption ≠ some true → after = []

section Rounds

variable {s : Session} {b : Batch} {bs : List Batch} {v : Visit} {vs : List Visit}

theorem through_nil : Through [] [] := ⟨rfl, fun _ h => absurd h List.not_mem_nil⟩

theorem Through.cons (h : Through bs vs) (passed : v.Passed) : Through (b :: bs) (v :: vs) :=
  ⟨congrArg Nat.succ h.all, List.forall_mem_cons.2 ⟨passed, h.passed⟩⟩

theorem haltsAt_zero (failed : ¬ v.Passed) : HaltsAt (b :: bs) [v] 0 where
  page := Nat.succ_pos _
  last := rfl
  passed := fun _ h => absurd h List.not_mem_nil
  failed := by
    rintro _ ⟨⟩
    exact failed

theorem HaltsAt.cons {i : Nat} (h : HaltsAt bs vs i) (passed : v.Passed) :
    HaltsAt (b :: bs) (v :: vs) (i + 1) where
  page := Nat.succ_lt_succ h.page
  last := congrArg Nat.succ h.last
  passed := List.forall_mem_cons.2 ⟨passed, h.passed⟩
  failed := h.failed

theorem Visited.cons {result : Except Failure (Pass × Stats)} (h : Visited bs vs result)
    (passed : v.Passed) : Visited (b :: bs) (v :: vs) result := by
  rcases result with f | ⟨m | batch, stats⟩
  · obtain ⟨i, halts⟩ := h
    exact ⟨i + 1, halts.cons passed⟩
  · exact Through.cons h passed
  · obtain ⟨i, halts⟩ := h
    exact ⟨i + 1, halts.cons passed⟩

theorem Session.rounds_halted (s : Session) (b : Batch) (bs : List Batch) (failed : ¬ v.Passed) :
    s.rounds (b :: bs) [v] = v.exchanges s b := by
  cases bs <;> simp [rounds, failed]

theorem Session.rounds_passed (s : Session) (b : Batch) (bs : List Batch) (vs : List Visit)
    (passed : v.Passed) :
    s.rounds (b :: bs) (v :: vs) = v.exchanges s b ++ (s.breath bs ++ s.rounds bs vs) := by
  cases bs <;> simp [rounds, breath, passed]

theorem requests_append (es es' : List Exchange) : requests (es ++ es') = requests es ++ requests es' :=
  List.filterMap_append

theorem requests_exchanges (s : Session) (b : Batch) (v : Visit) :
    requests (v.exchanges s b) = [.ofBatch b v.contents s.project.toText] := by
  unfold Visit.exchanges
  split <;> rfl

/-- There is one request for each page that was visited, and it carries that page. -/
theorem requests_rounds (s : Session) (bs : List Batch) (vs : List Visit) :
    (requests (s.rounds bs vs)).map Request.toBatch = bs.take vs.length := by
  induction bs generalizing vs with
  | nil => simp [Session.rounds, requests]
  | cons b bs ih =>
    cases vs with
    | nil => simp [Session.rounds, requests]
    | cons v vs =>
      have quiet : requests (if bs ≠ [] ∧ v.Passed then [.pause (s.batchDelay.getD 0)] else []) = [] := by
        split <;> rfl
      rw [Session.rounds, requests_append, requests_append, requests_exchanges, quiet, List.nil_append,
        List.singleton_append, List.map_cons, ih]
      rfl

end Rounds

namespace Turn

variable (s : Session) (t : Turn)

theorem requests_exchanges :
    (requests (t.exchanges s)).map Request.toBatch = (t.pages s).take t.visits.length := by
  cases t with
  | unanswered | clean => exact List.take_zero.symm
  | worked a failing found visits => exact requests_rounds s _ visits

theorem sent_exchanges :
    sent (t.exchanges s) = ((t.pages s).take t.visits.length).flatMap Batch.diagnostics := by
  rw [← requests_exchanges, List.flatMap_map, sent]

theorem delivers : Delivers s t where
  pages := t.requests_exchanges s
  whole := by
    intro through
    rw [sent_exchanges, through.all, List.take_length]
    exact Batch.flatMap_pages_perm t.found s.pageSize_pos
  part := by
    intro i halts
    rw [sent_exchanges, halts.last]

end Turn

section InTurns

variable {s : Session} {es es' : List Exchange} {t : Turn} {turns : List Turn}

theorem inTurns_single
    (ended : Through (t.pages s) t.visits ∨ ∃ i, HaltsAt (t.pages s) t.visits i) :
    InTurns s (t.exchanges s) [t] where
  spelled := (List.flatMap_singleton _ _).symm
  some := List.cons_ne_nil _ _
  through := fun _ h => absurd h List.not_mem_nil
  ended := by
    rintro _ ⟨⟩
    exact ended

theorem inTurns_of_found_nil (found : t.found = []) (visits : t.visits = []) :
    InTurns s (t.exchanges s) [t] := by
  refine inTurns_single (.inl ?_)
  rw [Turn.pages, found, Batch.pages_nil s.pageSize_pos, visits]
  exact through_nil

theorem InTurns.cons (h : InTurns s es turns) (through : Through (t.pages s) t.visits) :
    InTurns s (t.exchanges s ++ es) (t :: turns) where
  spelled := by rw [List.flatMap_cons, ← h.spelled]
  some := List.cons_ne_nil _ _
  through := by
    rw [List.dropLast_cons_of_ne_nil h.some]
    exact List.forall_mem_cons.2 ⟨through, h.through⟩
  ended := by
    rw [List.getLast?_cons_of_ne_nil h.some]
    exact h.ended

end InTurns

namespace Session

variable {s : Session} {b : Batch} {bs : List Batch} {es : List Exchange}

theorem Sent.visit {result : Except Failure (Option Nat)} (h : Sent s b es result) :
    ∃ v : Visit, es = v.exchanges s b ∧ (v.Passed ↔ ∃ n, result = .ok (some n)) := by
  cases h with
  | @nothing contents answer idle =>
    exact ⟨⟨contents, answer, .ok true⟩, by simp [Visit.exchanges, idle], by simp [Visit.Passed, idle]⟩
  | @tried contents answer some outcome =>
    refine ⟨⟨contents, answer, outcome⟩, by simp [Visit.exchanges, some], ?_⟩
    rcases outcome with f | _ | _ <;> simp [Visit.Passed, some, Except.map, Except.toOption]

theorem Sent.halts {result : Except Failure (Option Nat)} (h : Sent s b es result)
    (failed : ∀ n, result ≠ .ok (some n)) (bs : List Batch) :
    ∃ vs, es = s.rounds (b :: bs) vs ∧ ∃ i, HaltsAt (b :: bs) vs i := by
  obtain ⟨v, rfl, hv⟩ := h.visit
  have failed : ¬ v.Passed := by
    rw [hv]
    rintro ⟨n, hn⟩
    exact failed n hn
  exact ⟨[v], (rounds_halted s b bs failed).symm, 0, haltsAt_zero failed⟩

theorem Paged.visits {position applied : Nat} {stats : Stats} {result : Except Failure (Pass × Stats)}
    (h : Paged s position applied stats bs es result) :
    ∃ vs, es = s.rounds bs vs ∧ Visited bs vs result := by
  induction h with
  | finished => exact ⟨[], rfl, through_nil⟩
  | threw sent => exact sent.halts (by simp) _
  | refused sent => exact sent.halts (by simp) _
  | next sent rest ih =>
    obtain ⟨v, rfl, hv⟩ := sent.visit
    obtain ⟨vs, rfl, visited⟩ := ih
    have passed : v.Passed := hv.2 ⟨_, rfl⟩
    exact ⟨v :: vs, (rounds_passed s _ _ vs passed).symm, visited.cons passed⟩

theorem Worked.turn {i : Nat} {stats : Stats} {result : Except Failure (Pass × Stats)}
    (h : Worked s i stats es result) :
    ∃ t : Turn, es = t.exchanges s ∧ Visited (t.pages s) t.visits result := by
  cases h with
  | @intro a ds _ _ failing found paged =>
    obtain ⟨vs, rfl, visited⟩ := paged.visits
    exact ⟨.worked a failing ds vs, rfl, visited⟩

theorem Course.turns {i left : Nat} {stats : Stats} {result : Except Failure RunReport}
    (h : Course s i left stats es result) : ∃ turns, InTurns s es turns := by
  induction h with
  | unavailable | threw => exact ⟨_, inTurns_of_found_nil (t := .unanswered _) rfl rfl⟩
  | clean passing => exact ⟨_, inTurns_of_found_nil (t := .clean _ passing) rfl rfl⟩
  | unparsed failing =>
    have none : s.rounds (Batch.pages [] s.pageSize) [] = [] := by
      rw [Batch.pages_nil s.pageSize_pos, rounds]
      simp
    have turn := inTurns_of_found_nil (s := s) (t := .worked _ failing [] []) rfl rfl
    rw [Turn.exchanges, none] at turn
    exact ⟨_, turn⟩
  | broken worked | refused worked =>
    obtain ⟨t, rfl, halted⟩ := worked.turn
    exact ⟨_, inTurns_single (.inr halted)⟩
  | idle worked | spent worked =>
    obtain ⟨t, rfl, through⟩ := worked.turn
    exact ⟨_, inTurns_single (.inl through)⟩
  | next worked rest ih =>
    obtain ⟨t, rfl, through⟩ := worked.turn
    obtain ⟨turns, inTurns⟩ := ih
    exact ⟨_, inTurns.cons through⟩

theorem Course.silentAfterFailure {i left : Nat} {stats : Stats} {result : Except Failure RunReport}
    (h : Course s i left stats es result) : SilentAfterFailure es := by
  rintro before fixes answer after rfl failed
  cases after with
  | nil => rfl
  | cons e after =>
    have chain := h.attended.chain.right_of_append
    obtain rfl := (List.isChain_cons_cons.1 chain).1.applied fixes answer rfl
    exact absurd rfl failed

/-- A session takes turns, each of which delivers what it has found, and ends with the first fixes that
could not be applied. -/
theorem run_inTurns {σ : Type} (s : Session) (crew : Crew σ) (stats : Stats) (x : σ) :
    ∃ turns : List Turn, InTurns s (s.exchanges crew stats x) turns ∧ (∀ t ∈ turns, Delivers s t) ∧
      SilentAfterFailure (s.exchanges crew stats x) := by
  have course := run_course s crew stats x
  obtain ⟨turns, inTurns⟩ := course.turns
  exact ⟨turns, inTurns, fun t _ => t.delivers s, course.silentAfterFailure⟩

end Session
end Mender
