import Mender.Proofs.World.Alike

/-! Which steps of a run are asides. Talking, pausing and looking at files change nothing of a world but
the record of it, and making a model nothing but the store of models; what is true of the rest stays true.
Launching a program and asking the model are no asides, as they are answered. -/

namespace Mender

namespace World

/-- The programs launched so far, the earliest first. -/
def launches (w : World) : List Launch := w.trace.filterMap Event.launch?

/-- The questions asked so far, the earliest first. -/
def questions (w : World) : List Question := w.trace.filterMap Event.question?

/-- A statement about a world that has nothing to do with what was said, how long it paused, and which
models were made. -/
class Aside (I : World → Prop) : Prop where
  record : ∀ {e : Event} (w : World), e.launch? = none → e.question? = none → I w →
    I { w with trace := w.trace ++ [e] }
  cache : ∀ (cache : ModelCache) (w : World), I w → I { w with cache }

variable {I : World → Prop} [Aside I]

/-- A world of which `I` holds is like itself, and `I` goes on to hold of it. -/
instance : Alike fun x y => x = y ∧ I x where
  twins h := h.1 ▸ twins_refl _
  record noLaunch noQuestion _ h := ⟨h.1 ▸ rfl, Aside.record _ noLaunch noQuestion h.2⟩
  noted := by
    rintro e x _ forDebugging ⟨rfl, h⟩
    refine ⟨rfl, ?_⟩
    unfold noted
    split
    · cases e with
      | console => exact Aside.record x rfl rfl h
      | _ => cases forDebugging
    · exact h
  store cache _ _ h := ⟨h.1 ▸ rfl, Aside.cache cache _ h.2⟩

theorem keeps_record {e : Event} (noLaunch : e.launch? = none) (noQuestion : e.question? = none) :
    Keeps I (record e) := fun w h => Aside.record w noLaunch noQuestion h

theorem keeps_print (channel : Channel) (pieces : List Piece) : Keeps I (print channel pieces) :=
  (agree_print _ _).keeps

theorem keeps_say (channel : Channel) (s : String) : Keeps I (say channel s) := keeps_print _ _

theorem keeps_printDebug (channel : Channel) (pieces : List Piece) :
    Keeps I (printDebug channel pieces) :=
  (agree_printDebug _ _).keeps

theorem keeps_sayDebug (channel : Channel) (s : String) : Keeps I (sayDebug channel s) :=
  keeps_printDebug _ _

theorem keeps_showDebug (label : String) (value : Json) : Keeps I (showDebug label value) :=
  (agree_showDebug label value).keeps

theorem keeps_sleep (duration : Number) : Keeps I (sleep duration) := keeps_record rfl rfl

theorem keeps_content? (root : Path) (file : String) : Keeps I (content? root file) :=
  (agree_content? root file).keeps

theorem keeps_contents (root : Path) (files : List String) : Keeps I (contents root files) :=
  (agree_contents root files).keeps

end World

open World

variable {I : World → Prop} [Aside I]

theorem Prompt.keeps_systemFor (projectPath : String) : Keeps I (systemFor projectPath) :=
  (agree_systemFor projectPath).keeps

theorem Analyzer.keeps_run (launch : ∀ l, Keeps I (World.launch l)) (a : Analyzer)
    (options? : Option AnalysisOptions) : Keeps I (a.run options?) :=
  (a.agree_run (fun l => (launch l).agree) options?).keeps

namespace Oracle

theorem keeps_readFixes (answer : List Char) : Keeps I (readFixes answer) :=
  (agree_readFixes answer).keeps

theorem keeps_consult (ask : ∀ q, Keeps I (World.ask q)) (o : Oracle) (r : Request) :
    Keeps I (o.consult r) :=
  (o.agree_consult (fun q => (ask q).agree) r).keeps

end Oracle

namespace Fix

theorem keeps_announce (outcome : Fix × Option Obstacle) : Keeps I (announce outcome) :=
  (agree_announce outcome).keeps

/-- What putting the mended files in place keeps, the step that applies fixes keeps. -/
theorem keeps_apply {root : Path} {fs : List Fix}
    (h : ∀ w : World, I w → I { w with tree := applyAll root w.tree fs }) : Keeps I (apply root fs) :=
  (agree_apply fun _ _ held => ⟨held.1 ▸ rfl, h _ held.2⟩).keeps

end Fix
end Mender
