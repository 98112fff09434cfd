import Mender.Proofs.World.Aside
import Mender.Proofs.World.Script

/-! The programs launched on the way from one world to another, and how each of them ended. The analyzer
launches one for every analysis, unless it is not installed. -/

namespace Mender

structure Process where
  launch : Launch
  exit : Exit

namespace World

def ended (w : World) (ls : List Launch) : List Process := ls.mapIdx fun i l => ⟨l, w.exits.nth i⟩

def processes (w w' : World) : List Process := w.ended (w'.launches.drop w.launches.length)

structure Launched (w : World) (ls : List Launch) (w' : World) : Prop where
  exits : w'.exits = w.exits.skip ls.length
  launches : w'.launches = w.launches ++ ls

variable {w w' : World} {ls : List Launch}

theorem getLast?_ended_concat (w : World) (ls : List Launch) (l : Launch) :
    (w.ended (ls ++ [l])).getLast? = some ⟨l, w.exits.nth ls.length⟩ := by
  rw [ended, List.mapIdx_concat, List.getLast?_concat]

theorem launched_nil (w : World) : Launched w [] w := ⟨rfl, (List.append_nil _).symm⟩

theorem Launched.processes_eq (h : Launched w ls w') : w.processes w' = w.ended ls := by
  rw [processes, h.launches, List.drop_left]

theorem processes_print (w w' : World) (channel : Channel) (pieces : List Piece) :
    w.processes ((print channel pieces).run w').2 = w.processes w' := by
  have launches : ((print channel pieces).run w').2.launches = w'.launches := by
    change List.filterMap Event.launch? (w'.trace ++ [.console channel pieces false]) = _
    rw [List.filterMap_append]
    exact List.append_nil _
  rw [processes, launches, processes]

theorem Launched.trans {w'' : World} {ls' : List Launch} (h : Launched w ls w')
    (h' : Launched w' ls' w'') : Launched w (ls ++ ls') w'' where
  exits := by rw [h'.exits, h.exits, List.length_append, Script.skip_add]
  launches := by rw [h'.launches, h.launches, List.append_assoc]

/-- If nothing was launched, the next programs end as they would have done. -/
theorem Launched.ended_eq (h : Launched w [] w') (ls : List Launch) : w'.ended ls = w.ended ls := by
  rw [ended, h.exits]
  rfl

instance : Aside (Launched w ls) where
  record w' noLaunch _ h :=
    ⟨h.exits, by simpa [World.launches, noLaunch] using h.launches⟩
  cache _ _ h := ⟨h.exits, h.launches⟩

theorem keeps_ask_launched (q : Question) : Keeps (Launched w ls) (ask q) := by
  intro w' launched
  refine ⟨launched.exits, ?_⟩
  change List.filterMap Event.launch? (w'.trace ++ [.ask q]) = _
  rw [List.filterMap_append, ← launched.launches]
  exact List.append_nil _

theorem Launched.set_tree {tree : Tree} (h : Launched w ls w') : Launched w ls { w' with tree } :=
  ⟨h.exits, h.launches⟩

/-- A program that is launched ends as the next one does. -/
theorem launch_launched (l : Launch) (h : Launched w ls w') :
    ((launch l).run w').1 = w.exits.nth ls.length ∧ Launched w (ls ++ [l]) ((launch l).run w').2 := by
  refine ⟨?_, ?_, ?_⟩
  · rw [Script.nth, ← h.exits]
    rfl
  · rw [List.length_append, List.length_singleton, Script.skip_succ, ← h.exits]
    rfl
  · change List.filterMap Event.launch? (w'.trace ++ [.launch l]) = _
    rw [List.filterMap_append, ← List.append_assoc, ← h.launches]
    rfl

end World

namespace Analyzer

open World

variable {w w' : World} {ls : List Launch} (a : Analyzer)

def analysing (options? : Option AnalysisOptions) : Launch :=
  a.launch (arguments (options?.getD ⟨none, none, none, none⟩)) (some outputLimit)

def answerOf (exit : Exit) : Except Failure Analysis :=
  match exit.fault with
  | some message => .error (.unavailable a.binary (.launchFailed message))
  | none => .ok (analysisOf exit)

theorem head?_analysing (options? : Option AnalysisOptions) :
    (a.analysing options?).arguments.head? = some "analyse" := rfl

theorem answerOf_eq_ok_iff {exit : Exit} {analysis : Analysis} :
    a.answerOf exit = .ok analysis ↔ exit.fault = none ∧ analysisOf exit = analysis := by
  unfold answerOf
  cases exit.fault <;> simp

/-- An exit code of zero is one that the program gave. -/
theorem exitCode_analysisOf_eq_zero_iff {exit : Exit} :
    (analysisOf exit).exitCode = 0 ↔ exit.status = some 0 := by
  have one : (1 : Number) ≠ 0 := by decide +kernel
  cases h : exit.status with
  | none => simp [analysisOf, h, one]
  | some status => simp [analysisOf, h]

theorem run_eq (options? : Option AnalysisOptions) :
    a.run options? = (do
      if a.isInstalled (← get) then
        sayDebug .log ("🔎 Running " ++ a.binary ++ " " ++
          " ".intercalate (arguments (options?.getD ⟨none, none, none, none⟩)))
        let exit ← World.launch (a.analysing options?)
        return a.answerOf exit
      else return .error (.unavailable a.binary .notInstalled)) := by
  refine bind_congr fun w => ?_
  split
  case isFalse => rfl
  case isTrue =>
    refine bind_congr fun _ => bind_congr fun exit => ?_
    unfold answerOf
    cases exit.fault <;> rfl

theorem run_of_not_installed (h : a.isInstalled w = false) (options? : Option AnalysisOptions) :
    (a.run options?).run w = (.error (.unavailable a.binary .notInstalled), w) := by
  simp only [run_eq, StateT.run_bind, StateT.run_get, pure_bind, h]
  rfl

theorem run_of_installed (h : a.isInstalled w' = true) (options? : Option AnalysisOptions)
    (launched : Launched w ls w') :
    ((a.run options?).run w').1 = a.answerOf (w.exits.nth ls.length) ∧
      Launched w (ls ++ [a.analysing options?]) ((a.run options?).run w').2 := by
  have told := keeps_sayDebug (I := Launched w ls) .log
    ("🔎 Running " ++ a.binary ++ " " ++ " ".intercalate
      (arguments (options?.getD ⟨none, none, none, none⟩))) w' launched
  obtain ⟨exit, launched'⟩ := launch_launched (a.analysing options?) told
  simp only [run_eq, StateT.run_bind, StateT.run_get, pure_bind, h, if_true]
  exact ⟨congrArg a.answerOf exit, launched'⟩

end Analyzer
end Mender
