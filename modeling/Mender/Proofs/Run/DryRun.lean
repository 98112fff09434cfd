import Mender.Proofs.Session.Processes
import Mender.Proofs.Text.Delimited

/-! What a dry run comes to. Its code, and whether it says that there are no errors, depend on whether any
diagnostic comes of its one analysis. That is so of an analysis that ends with zero, and of any of which
nothing can be read. -/

namespace Mender.Run

open World

section Unsaid

def noErrors : Event := .console .log [.text "✅ No PHPStan errors found"] false

/-- On the way from `w` to `w'`, it was not said that there are no errors. -/
def Unsaid (w w' : World) : Prop := ∃ es, w'.trace = w.trace ++ es ∧ noErrors ∉ es

variable {w : World}

theorem unsaid_refl (w : World) : Unsaid w w := ⟨[], (List.append_nil _).symm, List.not_mem_nil⟩

theorem keeps_record_unsaid {e : Event} (h : noErrors ≠ e) : Keeps (Unsaid w) (record e) := by
  rintro w' ⟨es, trace, unsaid⟩
  refine ⟨es ++ [e], ?_, by simp [unsaid, h]⟩
  change w'.trace ++ [e] = _
  rw [trace, List.append_assoc]

theorem keeps_say_unsaid (channel : Channel) {s : String} (h : s.toList.head? ≠ some '✅') :
    Keeps (Unsaid w) (say channel s) := by
  refine keeps_record_unsaid fun same => h ?_
  cases same
  rfl

theorem keeps_printDebug_unsaid (channel : Channel) (pieces : List Piece) :
    Keeps (Unsaid w) (printDebug channel pieces) :=
  keeps_get.bind fun _ => Keeps.ite (keeps_record_unsaid fun same => by cases same) (keeps_pure _)

theorem keeps_run_unsaid (a : Analyzer) (options? : Option AnalysisOptions) :
    Keeps (Unsaid w) (a.run options?) := by
  rw [a.run_eq]
  refine keeps_get.bind fun _ => Keeps.ite ?_ (keeps_pure _)
  refine (keeps_printDebug_unsaid _ _).bind fun _ => Keeps.bind ?_ fun _ => keeps_pure _
  refine (keeps_record_unsaid fun same => by cases same).bind fun _ => ?_
  exact keeps_modifyGet fun _ h => h

/-- A preview starts with the name of a file, if with anything. -/
theorem head?_preview (b : Batch) : b.preview.toList.head? ≠ some '✅' := by
  rw [Batch.preview, String.toList_intercalate]
  cases b.groups with
  | nil => simp
  | cons g groups =>
    change (Text.unlines (List.map String.toList (("File: " ++ g.1) :: _ ++ _))).head? ≠ _
    rw [List.cons_append, List.map_cons, Text.unlines_cons]
    simp

end Unsaid

section DryRun

variable {w w' : World} {analysis : Analysis}

/-- No diagnostic comes of the analysis, as it is clean or nothing can be read of it. -/
def Blank (analysis : Analysis) : Prop := analysis.exitCode = 0 ∨ parseReport analysis.output = []

def snapshotOf (analysis : Analysis) : Snapshot :=
  ⟨analysis.exitCode, if analysis.exitCode = 0 then [] else parseReport analysis.output⟩

theorem diagnostics_snapshotOf_eq_nil_iff : (snapshotOf analysis).diagnostics = [] ↔ Blank analysis := by
  unfold snapshotOf Blank
  split <;> simp [*]

theorem analyze_ofWorld (s : Session) (a : Analyzer) (o : Oracle) (root : Path) (w : World) :
    (s.analyze (.ofWorld a o root)).run w =
      (((a.run s.analysis).run w).1.map snapshotOf, ((a.run s.analysis).run w).2) := by
  change ((a.run s.analysis >>= _ : Act (Except Failure Snapshot)).run w) = _
  rw [run_bind]
  rcases (a.run s.analysis).run w with ⟨answer, w'⟩
  cases answer with
  | error f => rfl
  | ok analysis =>
    change (if analysis.exitCode = 0 then _ else _ : Act (Except Failure Snapshot)).run w' =
      (.ok ⟨_, if analysis.exitCode = 0 then _ else _⟩, w')
    split <;> rfl

def present (s : Session) : Except Failure Snapshot → Act (Except Failure Nat)
  | .error f => return .error f
  | .ok snapshot =>
    if snapshot.diagnostics.isEmpty then do
      say .log "✅ No PHPStan errors found"
      return .ok 0
    else do
      let total := snapshot.diagnostics.length
      say .log ("Found " ++ toString total ++ " errors in " ++
        toString (Batch.pagesFor total s.pageSize) ++ " batches")
      say .log "\nFirst batch:"
      say .log (Batch.page snapshot.diagnostics s.pageSize 0).preview
      return .ok 1

theorem dryRun_eq (s : Session) (crew : Crew World) : dryRun s crew = (do
    say .log "Dry run: analyzing without applying fixes..."
    let found ← s.analyze crew
    present s found) := by
  refine bind_congr fun _ => bind_congr fun found => ?_
  cases found <;> rfl

/-- What a dry run comes to: the analyzer could not be run, or no diagnostic comes of its analysis, or some
do. -/
inductive DryEnd (w : World) : Except Failure Nat → World → Prop where
  | failed {f : Failure} {w' : World} (unsaid : Unsaid w w')
      (unlaunched : ∀ p, (w.processes w').getLast? = some p → p.exit.fault ≠ none) :
      DryEnd w (.error f) w'
  | blank {w' : World} {p : Process} {analysis : Analysis}
      (last : (w.processes w').getLast? = some p) (gives : p.Gives analysis) (blank : Blank analysis) :
      DryEnd w (.ok 0) w'
  | found {w' : World} {p : Process} {analysis : Analysis}
      (last : (w.processes w').getLast? = some p) (gives : p.Gives analysis) (found : ¬ Blank analysis)
      (unsaid : Unsaid w w') : DryEnd w (.ok 1) w'

theorem DryEnd.of_launched {f : Failure} {ls : List Launch} (unsaid : Unsaid w w')
    (launched : Launched w ls w')
    (unlaunched : ∀ p, (w.ended ls).getLast? = some p → p.exit.fault ≠ none) : DryEnd w (.error f) w' :=
  .failed unsaid (by rw [launched.processes_eq]; exact unlaunched)

theorem keeps_present {I : World → Prop} [Aside I] (s : Session) (found : Except Failure Snapshot) :
    Keeps I (present s found) := by
  cases found with
  | error f => exact keeps_pure _
  | ok snapshot =>
    refine Keeps.ite ((keeps_say _ _).bind fun _ => keeps_pure _) ?_
    refine (keeps_say _ _).bind fun _ => (keeps_say _ _).bind fun _ => ?_
    exact (keeps_say _ _).bind fun _ => keeps_pure _

/-- The analysis that was given decides how a dry run ends. -/
theorem dryEnd_present {s : Session} {ls : List Launch} {p : Process} (unsaid : Unsaid w w')
    (launched : Launched w ls w') (last : (w.ended ls).getLast? = some p) (gives : p.Gives analysis) :
    DryEnd w ((present s (.ok (snapshotOf analysis))).run w').1
      ((present s (.ok (snapshotOf analysis))).run w').2 := by
  have last : (w.processes ((present s (.ok (snapshotOf analysis))).run w').2).getLast? = some p := by
    rw [(keeps_present (I := Launched w ls) s _ w' launched).processes_eq]
    exact last
  by_cases blank : Blank analysis
  · have none : (snapshotOf analysis).diagnostics.isEmpty = true :=
      List.isEmpty_iff.2 (diagnostics_snapshotOf_eq_nil_iff.2 blank)
    have code : ((present s (.ok (snapshotOf analysis))).run w').1 = .ok 0 := by
      rw [present, if_pos none]
      rfl
    rw [code]
    exact .blank last gives blank
  · have some : ¬ (snapshotOf analysis).diagnostics.isEmpty = true := fun h =>
      blank (diagnostics_snapshotOf_eq_nil_iff.1 (List.isEmpty_iff.1 h))
    have code : ((present s (.ok (snapshotOf analysis))).run w').1 = .ok 1 := by
      rw [present, if_neg some]
      rfl
    have kept : Keeps (Unsaid w) (present s (.ok (snapshotOf analysis))) := by
      rw [present, if_neg some]
      refine (keeps_say_unsaid _ (by simp)).bind fun _ => (keeps_say_unsaid _ (by simp)).bind fun _ => ?_
      exact (keeps_say_unsaid _ (head?_preview _)).bind fun _ => keeps_pure _
    rw [code]
    exact .found last gives blank (kept w' unsaid)

theorem dryEnd_dryRun (s : Session) (a : Analyzer) (o : Oracle) (root : Path) (unsaid : Unsaid w w')
    (launched : Launched w [] w') :
    DryEnd w ((dryRun s (.ofWorld a o root)).run w').1 ((dryRun s (.ofWorld a o root)).run w').2 := by
  have unsaid := keeps_say_unsaid .log (s := "Dry run: analyzing without applying fixes...") (by simp) w'
    unsaid
  have launched := keeps_say (I := Launched w []) .log "Dry run: analyzing without applying fixes..." w'
    launched
  rw [dryRun_eq, run_bind, run_bind, analyze_ofWorld]
  generalize ((say .log "Dry run: analyzing without applying fixes...").run w').2 = w₁ at *
  have unsaid' := keeps_run_unsaid a s.analysis w₁ unsaid
  cases installed : a.isInstalled w₁ with
  | false =>
    rw [a.run_of_not_installed installed]
    exact .of_launched unsaid launched fun p hp => by cases hp
  | true =>
    obtain ⟨answer_eq, launched'⟩ := a.run_of_installed installed s.analysis launched
    rcases hrun : (a.run s.analysis).run w₁ with ⟨answer, w₂⟩
    rw [hrun] at unsaid' launched' answer_eq
    have last := getLast?_ended_concat w [] (a.analysing s.analysis)
    cases answer with
    | error f =>
      refine .of_launched unsaid' launched' fun p hp fault => ?_
      rw [last, Option.some.injEq] at hp
      subst hp
      have ok := a.answerOf_eq_ok_iff.2 ⟨fault, rfl⟩
      rw [← answer_eq] at ok
      cases ok
    | ok analysis =>
      obtain ⟨fault, same⟩ := a.answerOf_eq_ok_iff.1 answer_eq.symm
      exact dryEnd_present unsaid' launched' last ⟨a.head?_analysing s.analysis, fault, same⟩

end DryRun

end Mender.Run
