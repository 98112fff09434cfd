import Mender.Proofs.Session.Sendings

/-! Whether the number of a line in a finding still names that line when the finding is sent. Findings
are sent page by page, and the fixes for one page are applied before the next is sent, so a fix that
spans several lines shifts the ones below it while their numbers stay as they are. -/

namespace Mender

open Mender.Text

theorem Tree.readText_of_lookup_contents {root : Path} {t : Tree} {files : List String}
    {file text : String} (h : (t.contents root files).lookup file = some text) :
    t.readText (Path.resolve root file.toList) = .ok text.toList := by
  obtain ⟨before, after, hc, -⟩ := List.lookup_eq_some_iff.1 h
  have hmem : (file, text) ∈ t.contents root files := by simp [hc]
  exact (mem_contents_iff.1 hmem).2.2

def Diagnostic.place (root : Path) (d : Diagnostic) : Path := Path.resolve root d.file.toList

namespace Session

variable {σ : Type} {tree : σ → Tree} {crew : Crew σ} {s : Session}

/-- A finding that is sent, and whose line no fix has named since the analysis, names the line that it
named then unless a fix shifted that line. If the line can be told from the others, it does so only
then. -/
theorem lineAt_of_mem_sendings (works : crew.WorksOn tree s.project) (stats : Stats) (x : σ) :
    ∀ q ∈ s.sendings crew stats x, ∀ d ∈ q.request.toBatch.diagnostics, ∀ text,
      q.request.contents.lookup d.file = some text →
      (∀ f ∈ q.earlier, f.target s.project = d.place s.project → f.line ≠ d.line) →
      ∃ before, (tree q.found).readText (d.place s.project) = .ok before ∧
        ∀ a, lineAt before d.line = some a →
          ((∀ f ∈ q.earlier, ¬ f.Shifts s.project (d.place s.project) d.line) →
            lineAt text.toList d.line = some a) ∧
          ((lines before).count a = 1 →
            (∀ f ∈ q.earlier, f.target s.project = d.place s.project → a ∉ lines f.fixed.toList) →
            (lineAt text.toList d.line = some a ↔
              ∀ f ∈ q.earlier, ¬ f.Shifts s.project (d.place s.project) d.line)) := by
  intro q hq d _ text sent apart
  obtain ⟨done, contents⟩ := Sending.shows works s stats x q hq
  rw [contents] at sent
  exact Fix.lineAt_applyAll done (Tree.readText_of_lookup_contents sent) apart

/-- Every finding that is sent, and whose line no fix has named since the analysis, names the line that
it named then. -/
def NumbersStand (s : Session) (tree : σ → Tree) (crew : Crew σ) (stats : Stats) (x : σ) : Prop :=
  ∀ q ∈ s.sendings crew stats x, ∀ d ∈ q.request.toBatch.diagnostics, ∀ text,
    q.request.contents.lookup d.file = some text →
    (∀ f ∈ q.earlier, f.target s.project = d.place s.project → f.line ≠ d.line) →
    ∃ before, (tree q.found).readText (d.place s.project) = .ok before ∧
      lineAt text.toList d.line = lineAt before d.line

end Session

/-- Fixes as they are asked for: of lines that the request reports, each line once, and the lower ones
of a file first. -/
structure Request.Orderly (request : Request) (fixes : List Fix) : Prop where
  reported : ∀ f ∈ fixes, ∃ d ∈ request.toBatch.diagnostics, f.file = d.file ∧ f.line = d.line
  descending : fixes.Pairwise fun f g => f.file = g.file → g.line.lt f.line = true

/-- A crew that keeps its files in a tree, finds what it finds, and answers by the request alone. -/
def Crew.ofTree (root : Path) (analysis : Analysis) (found : List Diagnostic)
    (answer : Request → Response) : Crew Tree where
  analyze _ := pure (.ok analysis)
  parse _ := pure found
  contents files := fun t => (t.contents root files, t)
  consult request := pure (.ok (answer request))
  apply fixes := fun t => (.ok (Fix.failures root t fixes).isEmpty, Fix.applyAll root t fixes)
  pause _ := pure ()
  say _ _ := pure ()

theorem Crew.worksOn_ofTree (root : Path) (analysis : Analysis) (found : List Diagnostic)
    (answer : Request → Response) : (Crew.ofTree root analysis found answer).WorksOn id root where
  analyze _ _ := rfl
  parse _ _ := rfl
  contents _ _ := ⟨rfl, rfl⟩
  consult _ _ := rfl
  apply _ _ := ⟨rfl, rfl⟩
  pause _ _ := rfl
  say _ _ _ := rfl

namespace Drift

/-! Findings on the lines 1 and 3 of a file, a page each. A line is put in above line 1, and what was
line 3 is line 4 when its finding is sent. -/

def session : Session where
  project := ["p".toList]
  pageSize := 1
  maxIterations := 1
  batchDelay := none
  analysis := none
  pageSize_pos := Nat.one_pos
  maxIterations_pos := Nat.one_pos

def place : Path := ["p".toList, "a.php".toList]

def tree : Tree := ⟨[(place, .file ⟨encode "one\ntwo\nthree".toList, true, true⟩)]⟩

def first : Diagnostic := ⟨"first", "a.php", 1, .other, none, none⟩

def second : Diagnostic := ⟨"second", "a.php", 3, .other, none, none⟩

def insertion : Fix := ⟨"a.php", 1, "one", "new\none"⟩

def answer (request : Request) : Response :=
  ⟨.success, "", if first ∈ request.toBatch.diagnostics then [insertion] else []⟩

def crew : Crew Tree := .ofTree session.project ⟨"", 1⟩ [first, second] answer

def sending : Sending Tree where
  found := tree
  earlier := [insertion]
  request :=
    { info := ⟨1, 2, 1, false⟩
      errors := [("a.php", [second])]
      contents := [("a.php", "new\none\ntwo\nthree")]
      projectPath := "/p" }

theorem sending_mem : sending ∈ session.sendings crew .zero tree := by decide +kernel

theorem orderly (request : Request) : request.Orderly (answer request).fixes := by
  unfold answer
  split
  case isTrue h =>
    refine ⟨fun f hf => ?_, List.pairwise_singleton _ _⟩
    obtain rfl := List.mem_singleton.1 hf
    exact ⟨first, h, rfl, rfl⟩
  case isFalse => exact ⟨fun f hf => absurd hf List.not_mem_nil, List.Pairwise.nil⟩

theorem apart : ∀ f ∈ sending.earlier,
    f.target session.project = second.place session.project → f.line ≠ second.line := by
  decide +kernel

theorem lineAt_sent : lineAt "new\none\ntwo\nthree".toList 3 = some "two".toList := by decide +kernel

theorem readText_tree : tree.readText place = .ok "one\ntwo\nthree".toList := by decide +kernel

theorem lineAt_found : lineAt "one\ntwo\nthree".toList 3 = some "three".toList := by decide +kernel

/-- Here the second finding would name its line if the fix for the first spanned one line. -/
theorem lineAt_second_iff :
    lineAt "new\none\ntwo\nthree".toList 3 = some "three".toList ↔
      ∀ f ∈ [insertion], ¬ f.Shifts session.project place 3 := by
  have works : crew.WorksOn id session.project := Crew.worksOn_ofTree _ _ _ _
  obtain ⟨before, hread, told⟩ := Session.lineAt_of_mem_sendings works .zero tree sending sending_mem
    second (by decide +kernel) "new\none\ntwo\nthree" (by decide +kernel) apart
  obtain rfl := Except.ok.inj (readText_tree.symm.trans hread)
  exact (told "three".toList lineAt_found).2 (by decide +kernel) (by decide +kernel)

/-- Numbers need not stand, however orderly the fixes are that are proposed. -/
theorem not_numbersStand :
    crew.WorksOn id session.project ∧
      (∀ (request : Request) x, request.Orderly (proposals ((crew.consult request).run x).1)) ∧
      ¬ session.NumbersStand id crew .zero tree := by
  refine ⟨Crew.worksOn_ofTree _ _ _ _, fun request _ => orderly request, fun stand => ?_⟩
  obtain ⟨before, hread, same⟩ := stand sending sending_mem second (by decide +kernel)
    "new\none\ntwo\nthree" (by decide +kernel) apart
  obtain rfl := Except.ok.inj (readText_tree.symm.trans hread)
  have moved := lineAt_sent.symm.trans (same.trans lineAt_found)
  exact absurd moved (by decide +kernel)

end Drift
end Mender
