import Mender.Proofs.Session.Agreement
import Mender.Proofs.World.Aside

/-! Which steps leave the files of a world alone: all but applying fixes and writing the figures of a
session. -/

namespace Mender

open World

/-- A statement about the files of a world, and the directory from which they are named. -/
def World.Files (P : Tree → Path → Prop) (w : World) : Prop := P w.tree w.directory

variable {P : Tree → Path → Prop}

namespace World

instance : Aside (Files P) where
  record _ _ _ h := h
  cache _ _ h := h

theorem keeps_launch (l : Launch) : Keeps (Files P) (launch l) :=
  fun _ h => h

theorem keeps_ask (q : Question) : Keeps (Files P) (ask q) :=
  fun _ h => h

end World

/-- A crew that works on the world itself keeps what the fixes keep that it applies. -/
theorem Crew.keeps_ofWorld {analyzer : Analyzer} {oracle : Oracle} {root : Path}
    (h : ∀ fs t d, P t d → P (Fix.applyAll root t fs) d) :
    (Crew.ofWorld analyzer oracle root).Keeps (Files P) where
  analyze := analyzer.keeps_run keeps_launch
  parse _ := keeps_pure _
  contents := keeps_contents root
  consult := oracle.keeps_consult keeps_ask
  apply fixes :=
    (Fix.keeps_apply (I := Files P) fun w => h fixes w.tree w.directory).bind fun _ => keeps_pure _
  pause := keeps_sleep
  say := keeps_say

end Mender
