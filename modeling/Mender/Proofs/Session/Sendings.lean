import Mathlib.Data.List.Chain
import Mender.Proofs.Fix.Lines
import Mender.Proofs.Json.Members
import Mender.Proofs.Session.Course

/-! What the requests of a session show of the files, when these change by nothing but the fixes that
the session applies. Every request shows its files as the fixes left them that were applied since the
analysis, and all of these fixes were applied. -/

namespace Mender

variable {σ : Type}

namespace Tree

def content? (root : Path) (t : Tree) (file : String) : Option (String × String) :=
  match t.readText (Path.resolve root file.toList) with
  | .ok s => some (file, String.ofList s)
  | .error _ => none

def contents (root : Path) (t : Tree) (files : List String) : List (String × String) :=
  Request.contentsOf (files.filterMap (t.content? root))

theorem content?_eq_some_iff {root : Path} {t : Tree} {file : String} {shown : String × String} :
    t.content? root file = some shown ↔
      shown.1 = file ∧ t.readText (Path.resolve root file.toList) = .ok shown.2.toList := by
  obtain ⟨name, text⟩ := shown
  unfold content?
  cases t.readText (Path.resolve root file.toList) with
  | error fault => simp
  | ok s =>
    have same : String.ofList s = text ↔ s = text.toList :=
      ⟨fun h => by rw [← h, String.toList_ofList], fun h => by rw [h, String.ofList_toList]⟩
    dsimp only
    rw [Option.some.injEq, Prod.mk.injEq, same, Except.ok.injEq, @eq_comm _ name]

/-- All files are there that can be read, but for one whose name cannot be a member's. -/
theorem mem_contents_iff {root : Path} {t : Tree} {files : List String} {file text : String} :
    (file, text) ∈ t.contents root files ↔
      file ∈ files ∧ file ≠ reservedName ∧
        t.readText (Path.resolve root file.toList) = .ok text.toList := by
  have given (name content : String) :
      (name, content) ∈ (files.filterMap (t.content? root)).filter (·.1 != reservedName) ↔
        name ∈ files ∧ name ≠ reservedName ∧
          t.readText (Path.resolve root name.toList) = .ok content.toList := by
    simp only [List.mem_filter, List.mem_filterMap, content?_eq_some_iff, bne_iff_ne]
    constructor
    · rintro ⟨⟨_, named, rfl, read⟩, free⟩
      exact ⟨named, free, read⟩
    · rintro ⟨named, free, read⟩
      exact ⟨⟨name, named, rfl, read⟩, free⟩
  refine ⟨fun h => (given file text).1 (Json.mem_of_mem_putAll h), fun h => ?_⟩
  refine Json.mem_putAll (fun other hother same => ?_) ((given file text).2 h)
  obtain ⟨name, content⟩ := other
  obtain rfl : name = file := same
  -- one place has one text, so nothing else was put in under the name
  have read := ((given name content).1 hother).2.2
  rw [h.2.2, Except.ok.injEq, String.toList_inj] at read
  rw [read]

end Tree

/-- A crew that reads and mends the files of a tree. Nothing but mending changes them. -/
structure Crew.WorksOn (tree : σ → Tree) (root : Path) (crew : Crew σ) : Prop where
  analyze : ∀ options x, tree ((crew.analyze options).run x).2 = tree x
  parse : ∀ output x, tree ((crew.parse output).run x).2 = tree x
  contents : ∀ files x, ((crew.contents files).run x).1 = (tree x).contents root files ∧
    tree ((crew.contents files).run x).2 = tree x
  consult : ∀ request x, tree ((crew.consult request).run x).2 = tree x
  apply : ∀ fixes x,
    ((crew.apply fixes).run x).1 = .ok (Fix.failures root (tree x) fixes).isEmpty ∧
      tree ((crew.apply fixes).run x).2 = Fix.applyAll root (tree x) fixes
  pause : ∀ duration x, tree ((crew.pause duration).run x).2 = tree x
  say : ∀ channel text x, tree ((crew.say channel text).run x).2 = tree x

namespace Exchange

/-- What an exchange makes of a tree. -/
def effect (root : Path) (t : Tree) : Exchange → Tree
  | .application fixes _ => Fix.applyAll root t fixes
  | _ => t

/-- The answer is the one that this tree gives, as far as it has to do with the tree. -/
def Fits (root : Path) (t : Tree) : Exchange → Prop
  | .reading files contents => contents = t.contents root files
  | .application fixes answer => answer = .ok (Fix.failures root t fixes).isEmpty
  | _ => True

/-- What has to be true of an exchange for another to follow it. -/
structure Before (e e' : Exchange) : Prop where
  applied : ∀ fixes answer, e = .application fixes answer → answer = .ok true
  read : ∀ request answer, e' = .consultation request answer →
    e = .reading request.errors.files request.contents

end Exchange

inductive Leads (tree : σ → Tree) (root : Path) : Tree → List (Moment σ) → Tree → Prop where
  | nil {t : Tree} : Leads tree root t [] t
  | cons {m : Moment σ} {ms : List (Moment σ)} {t : Tree}
      (fits : m.exchange.Fits root (tree m.state))
      (rest : Leads tree root (m.exchange.effect root (tree m.state)) ms t) :
      Leads tree root (tree m.state) (m :: ms) t

section Leads

variable {tree : σ → Tree} {root : Path} {crew : Crew σ}

theorem Leads.snoc {t t' : Tree} {ms : List (Moment σ)} {m : Moment σ}
    (h : Leads tree root t ms t') (here : tree m.state = t') (fits : m.exchange.Fits root t') :
    Leads tree root t (ms ++ [m]) (m.exchange.effect root t') := by
  induction h with
  | nil =>
    subst here
    exact .cons fits .nil
  | cons fits' _ ih => exact .cons fits' (ih here fits)

theorem keeps_recording {α : Type} {tell : α → Exchange} {act : StateM σ α} (t : Tree)
    (h : ∀ x, (tell (act.run x).1).Fits root (tree x) ∧
      tree (act.run x).2 = (tell (act.run x).1).effect root (tree x)) :
    Keeps (fun xh : Recorded σ => Leads tree root t xh.2 (tree xh.1)) (recording tell act) := by
  rintro ⟨x, ms⟩ leads
  change Leads tree root t (ms ++ [⟨x, tell (act.run x).1⟩]) (tree (act.run x).2)
  rw [(h x).2]
  exact leads.snoc rfl (h x).1

theorem Crew.WorksOn.keeps (works : crew.WorksOn tree root) (t : Tree) :
    crew.recorded.Keeps fun xh => Leads tree root t xh.2 (tree xh.1) where
  analyze options := keeps_recording t fun x => ⟨trivial, works.analyze options x⟩
  parse output := keeps_recording t fun x => ⟨trivial, works.parse output x⟩
  contents files := keeps_recording t fun x => works.contents files x
  consult request := keeps_recording t fun x => ⟨trivial, works.consult request x⟩
  apply fixes := keeps_recording t fun x => works.apply fixes x
  pause duration := keeps_recording t fun x => ⟨trivial, works.pause duration x⟩
  say channel text := by
    rintro ⟨x, ms⟩ leads
    change Leads tree root t ms (tree ((crew.say channel text).run x).2)
    rw [works.say]
    exact leads

theorem Session.history_leads (works : crew.WorksOn tree root) (s : Session) (stats : Stats)
    (x : σ) : ∃ t, Leads tree root (tree x) (s.history crew stats x) t :=
  ⟨_, s.keeps_run (works.keeps (tree x)) stats (x, []) .nil⟩

end Leads

/-- Exchanges each of which may be followed by the next. They do not begin in the middle of a batch. -/
structure Attended (es : List Exchange) : Prop where
  chain : es.IsChain Exchange.Before
  head : ∀ e ∈ es.head?, ∀ request answer, e ≠ .consultation request answer

/-- Nothing went wrong with the last exchange. -/
def Settled (es : List Exchange) : Prop :=
  ∀ e ∈ es.getLast?, ∀ fixes answer, e = .application fixes answer → answer = .ok true

theorem attended_nil : Attended [] := ⟨.nil, fun _ h => by cases h⟩

theorem settled_nil : Settled [] := fun _ h => by cases h

theorem attended_singleton {e : Exchange} (h : ∀ request answer, e ≠ .consultation request answer) :
    Attended [e] := by
  refine ⟨.singleton e, ?_⟩
  rintro _ ⟨⟩
  exact h

theorem settled_singleton {e : Exchange} (h : ∀ fixes answer, e ≠ .application fixes answer) :
    Settled [e] := by
  rintro _ ⟨⟩ fixes answer he
  exact absurd he (h fixes answer)

theorem Attended.append {es es' : List Exchange} (h : Attended es) (settled : Settled es)
    (h' : Attended es') : Attended (es ++ es') where
  chain := by
    refine List.isChain_append.2 ⟨h.chain, h'.chain, fun e he e' he' => ⟨settled e he, ?_⟩⟩
    intro request answer consulted
    exact absurd consulted (h'.head e' he' request answer)
  head := by
    cases es with
    | nil => exact h'.head
    | cons => exact h.head

theorem Settled.append {es es' : List Exchange} (h : Settled es) (h' : Settled es') :
    Settled (es ++ es') := by
  intro e he
  rw [List.getLast?_append] at he
  cases hl : es'.getLast? with
  | none => exact h e (by simpa [hl] using he)
  | some => exact h' e (by simpa [hl] using he)

namespace Session

variable {s : Session} {b : Batch} {bs : List Batch} {es : List Exchange}

theorem Sent.attended {result : Except Failure (Option Nat)} (h : Sent s b es result) :
    Attended es := by
  have read (contents : List (String × String)) (answer : Except Failure Response) :
      (Exchange.reading b.groups.files contents).Before
        (.consultation (.ofBatch b contents s.project.toText) answer) := by
    constructor
    · intro _ _ h
      cases h
    · intro _ _ h
      cases h
      rfl
  cases h with
  | nothing =>
    refine ⟨.cons_cons (read _ _) (.singleton _), ?_⟩
    rintro _ ⟨⟩ _ _ h
    cases h
  | tried =>
    refine ⟨.cons_cons (read _ _) (.cons_cons ⟨?_, ?_⟩ (.singleton _)), ?_⟩
    · intro _ _ h
      cases h
    · intro _ _ h
      cases h
    · rintro _ ⟨⟩ _ _ h
      cases h

theorem Sent.settled {result : Except Failure (Option Nat)} (h : Sent s b es result) {n : Nat}
    (hn : result = .ok (some n)) : Settled es := by
  cases h with
  | nothing =>
    rintro _ ⟨⟩ _ _ h
    cases h
  | tried some outcome =>
    rcases outcome with f | _ | _
    · cases hn
    · cases hn
    · rintro _ ⟨⟩ _ _ h
      cases h
      rfl

theorem attended_breath (s : Session) (bs : List Batch) : Attended (breath s bs) := by
  unfold breath
  split
  · exact attended_nil
  · exact attended_singleton fun _ _ h => by cases h

theorem settled_breath (s : Session) (bs : List Batch) : Settled (breath s bs) := by
  unfold breath
  split
  · exact settled_nil
  · exact settled_singleton fun _ _ h => by cases h

theorem Paged.attended {position applied : Nat} {stats : Stats}
    {result : Except Failure (Pass × Stats)}
    (h : Paged s position applied stats bs es result) : Attended es := by
  induction h with
  | finished => exact attended_nil
  | threw sent => exact sent.attended
  | refused sent => exact sent.attended
  | next sent rest ih =>
    exact sent.attended.append (sent.settled rfl)
      ((attended_breath s _).append (settled_breath s _) ih)

theorem Paged.settled {position applied m : Nat} {stats stats' : Stats}
    {result : Except Failure (Pass × Stats)}
    (h : Paged s position applied stats bs es result) (hm : result = .ok (.finished m, stats')) :
    Settled es := by
  induction h with
  | finished => exact settled_nil
  | threw sent => cases hm
  | refused sent => cases hm
  | next sent rest ih =>
    exact (sent.settled rfl).append ((settled_breath s _).append (ih hm))

theorem attended_analysis (options : Option AnalysisOptions) (answer : Except Failure Analysis) :
    Attended [.analysis options answer] := attended_singleton fun _ _ h => by cases h

theorem attended_analyzed (options : Option AnalysisOptions) (a : Analysis) (ds : List Diagnostic) :
    Attended [.analysis options (.ok a), .parsing a.output ds] :=
  (attended_analysis options (.ok a)).append (settled_singleton fun _ _ h => by cases h)
    (attended_singleton fun _ _ h => by cases h)

theorem settled_analyzed (options : Option AnalysisOptions) (a : Analysis) (ds : List Diagnostic) :
    Settled [.analysis options (.ok a), .parsing a.output ds] := by
  rintro _ ⟨⟩ _ _ h
  cases h

theorem Worked.attended {i : Nat} {stats : Stats} {result : Except Failure (Pass × Stats)}
    (h : Worked s i stats es result) : Attended es := by
  cases h with
  | intro _ _ paged =>
    exact (attended_analyzed _ _ _).append (settled_analyzed _ _ _) paged.attended

theorem Worked.settled {i m : Nat} {stats stats' : Stats}
    (h : Worked s i stats es (.ok (.finished m, stats'))) : Settled es := by
  cases h with
  | intro _ _ paged => exact (settled_analyzed _ _ _).append (paged.settled rfl)

theorem Course.attended {i left : Nat} {stats : Stats} {result : Except Failure RunReport}
    (h : Course s i left stats es result) : Attended es := by
  induction h with
  | unavailable | threw | clean => exact attended_analysis _ _
  | unparsed => exact attended_analyzed _ _ _
  | broken worked | refused worked | idle worked | spent worked => exact worked.attended
  | next worked _ ih => exact worked.attended.append worked.settled ih

end Session

/-- A request, and what led to it since the analysis: the state in which that began, and the fixes. -/
structure Sending (σ : Type) where
  found : σ
  earlier : List Fix
  request : Request
  deriving DecidableEq

/-- The requests of a history, `earlier` having been applied since the analysis in `found`. -/
def sendingsFrom (found : σ) (earlier : List Fix) : List (Moment σ) → List (Sending σ)
  | [] => []
  | ⟨x, .analysis _ _⟩ :: ms => sendingsFrom x [] ms
  | ⟨_, .consultation request _⟩ :: ms =>
    ⟨found, earlier, request⟩ :: sendingsFrom found earlier ms
  | ⟨_, .application fixes _⟩ :: ms => sendingsFrom found (earlier ++ fixes) ms
  | _ :: ms => sendingsFrom found earlier ms

def Session.sendings (s : Session) (crew : Crew σ) (stats : Stats) (x : σ) : List (Sending σ) :=
  sendingsFrom x [] (s.history crew stats x)

namespace Sending

variable {tree : σ → Tree} {root : Path} {crew : Crew σ}

/-- The request shows the files as the earlier fixes left them, and all of these were applied. -/
structure Shows (tree : σ → Tree) (root : Path) (q : Sending σ) : Prop where
  done : Fix.failures root (tree q.found) q.earlier = []
  contents : q.request.contents =
    (Fix.applyAll root (tree q.found) q.earlier).contents root q.request.errors.files

/-- Only after a reading there is a request. -/
theorem read_of_before {m : Moment σ} {ms : List (Moment σ)} {t : Tree}
    (chain : ((m :: ms).map Moment.exchange).IsChain Exchange.Before)
    (fits : ∀ files contents, m.exchange = .reading files contents →
      contents = t.contents root files) :
    ∀ m' ∈ ms.head?, ∀ request answer, m'.exchange = .consultation request answer →
      request.contents = t.contents root request.errors.files := by
  intro m' hm' request answer he
  cases ms with
  | nil => cases hm'
  | cons m'' ms =>
    cases hm'
    exact fits _ _ ((List.isChain_cons_cons.1 chain).1.read request answer he)

theorem shows_of_leads {t t' : Tree} {ms : List (Moment σ)} (leads : Leads tree root t ms t')
    (chain : (ms.map Moment.exchange).IsChain Exchange.Before) {found : σ} {earlier : List Fix}
    (done : Fix.failures root (tree found) earlier = [])
    (here : t = Fix.applyAll root (tree found) earlier)
    (read : ∀ m ∈ ms.head?, ∀ request answer, m.exchange = .consultation request answer →
      request.contents = t.contents root request.errors.files) :
    ∀ q ∈ sendingsFrom found earlier ms, q.Shows tree root := by
  -- `done` and `here` say where the files are; `read` is what the exchange before has promised
  induction leads generalizing found earlier with
  | nil => exact fun _ hq => by cases hq
  | @cons m ms t fits rest ih =>
    obtain ⟨x, e⟩ := m
    have chain' := List.isChain_of_isChain_cons chain
    cases e with
    | analysis options answer => exact ih chain' rfl rfl (read_of_before chain fun _ _ h => by cases h)
    | parsing output ds => exact ih chain' done here (read_of_before chain fun _ _ h => by cases h)
    | pause duration => exact ih chain' done here (read_of_before chain fun _ _ h => by cases h)
    | reading files contents =>
      refine ih chain' done here (read_of_before chain fun _ _ h => ?_)
      cases h
      exact fits
    | consultation request answer =>
      have shown : Shows tree root ⟨found, earlier, request⟩ := by
        refine ⟨done, ?_⟩
        rw [read _ rfl request answer rfl, here]
      have later := ih chain' done here (read_of_before chain fun _ _ h => by cases h)
      exact List.forall_mem_cons.2 ⟨shown, later⟩
    | application fixes answer =>
      cases ms with
      | nil => exact fun _ hq => by cases hq
      | cons m' ms =>
        -- the session goes on, so all of these fixes were applied
        have applied := (List.isChain_cons_cons.1 chain).1.applied fixes answer rfl
        rw [fits, Except.ok.injEq, List.isEmpty_iff] at applied
        refine ih chain' ?_ ?_ fun m'' hm'' request answer he => ?_
        · rw [Fix.failures_append, done, ← here, applied]
          rfl
        · rw [Fix.applyAll_append, ← here]
          rfl
        · cases hm''
          have := (List.isChain_cons_cons.1 chain).1.read request answer he
          cases this

theorem shows (works : crew.WorksOn tree root) (s : Session) (stats : Stats) (x : σ) :
    ∀ q ∈ s.sendings crew stats x, q.Shows tree root := by
  obtain ⟨t, leads⟩ := s.history_leads works stats x
  have attended := (s.run_course crew stats x).attended
  refine shows_of_leads leads attended.chain rfl rfl fun m hm request answer he => ?_
  exact absurd he (attended.head _ (by rw [Session.exchanges, List.head?_map, hm]; rfl) _ _)

end Sending
end Mender
