import Mender.Proofs.Fix.Obstacles
import Mender.Proofs.Session.LineNumbers
import Mender.Run

/-! Which files a session discloses to the model. A request shows every reported file that can be read,
wherever the report says that it is. Whether a file belongs to the project is asked before it is changed,
and not before it is sent. -/

namespace Mender

variable {σ : Type}

def Sending.sentFrom (tree : σ → Tree) (root : Path) (q : Sending σ) : Tree :=
  Fix.applyAll root (tree q.found) q.earlier

namespace Session

variable {tree : σ → Tree} {crew : Crew σ} {s : Session}

/-- Every file that a session sends passes the test that fixes have to pass. -/
def Discreet (s : Session) (crew : Crew σ) (stats : Stats) (x : σ) : Prop :=
  ∀ q ∈ s.sendings crew stats x, ∀ shown ∈ q.request.contents,
    Path.contains s.project (Path.resolve s.project shown.1.toList) = true

structure Discloses (s : Session) (tree : σ → Tree) (crew : Crew σ) (stats : Stats) (x : σ) : Prop where
  /-- Of the reported files, all that can be read, but for one whose name cannot be a member's. -/
  shown : ∀ q ∈ s.sendings crew stats x, ∀ file text, (file, text) ∈ q.request.contents ↔
    file ∈ q.request.errors.files ∧ file ≠ reservedName ∧
      (q.sentFrom tree s.project).readText (Path.resolve s.project file.toList) = .ok text.toList
  /-- So nothing but the project, if none of these is outside of it. -/
  discreet_iff : s.Discreet crew stats x ↔
    ∀ q ∈ s.sendings crew stats x, ∀ file ∈ q.request.errors.files, file ≠ reservedName → ∀ text,
      (q.sentFrom tree s.project).readText (Path.resolve s.project file.toList) = .ok text →
        s.project <+: Path.resolve s.project file.toList
  /-- And those outside are the ones for which every fix is refused as such. -/
  refused_iff : ∀ q ∈ s.sendings crew stats x, ∀ shown ∈ q.request.contents,
    ¬ s.project <+: Path.resolve s.project shown.1.toList ↔
      ∀ f : Fix, f.file = shown.1 → f.applyTo s.project (q.sentFrom tree s.project) = .error .outside

theorem discloses (works : crew.WorksOn tree s.project) (stats : Stats) (x : σ) :
    s.Discloses tree crew stats x := by
  have shown : ∀ q ∈ s.sendings crew stats x, ∀ file text, (file, text) ∈ q.request.contents ↔
      file ∈ q.request.errors.files ∧ file ≠ reservedName ∧
        (q.sentFrom tree s.project).readText (Path.resolve s.project file.toList) = .ok text.toList := by
    intro q hq file text
    rw [(Sending.shows works s stats x q hq).contents]
    exact Tree.mem_contents_iff
  refine ⟨shown, ⟨?_, ?_⟩, fun q _ ⟨file, _⟩ _ => ⟨?_, ?_⟩⟩
  · intro discreet q hq file named free text read
    have sent := (shown q hq file (String.ofList text)).2
      ⟨named, free, by rw [String.toList_ofList]; exact read⟩
    exact (Path.contains_resolve_iff _ _).1 (discreet q hq (file, String.ofList text) sent)
  · rintro inside q hq ⟨file, text⟩ hshown
    obtain ⟨named, free, read⟩ := (shown q hq file text).1 hshown
    exact (Path.contains_resolve_iff _ _).2 (inside q hq file named free _ read)
  · rintro outside f rfl
    rw [Fix.applyTo_eq_outside_iff, ← Bool.not_eq_true]
    exact mt (Path.contains_resolve_iff _ _).1 outside
  · intro refused
    have outside := Fix.applyTo_eq_outside_iff.1 (refused ⟨file, 1, "", ""⟩ rfl)
    rw [← Bool.not_eq_true] at outside
    exact mt (Path.contains_resolve_iff _ _).2 outside

end Session

namespace Leak

/-! A report that names a file beside the project. -/

def report : String :=
  "\n".intercalate [
    " ------ ------ ",
    "  Line   ../secret.txt ",
    " ------ ------ ",
    "  1      found ",
    " ------ ------ "]

def session : Session where
  project := ["p".toList]
  pageSize := 1
  maxIterations := 1
  batchDelay := none
  analysis := none
  pageSize_pos := Nat.one_pos
  maxIterations_pos := Nat.one_pos

def tree : Tree := ⟨[(["secret.txt".toList], .file ⟨Text.encode "key".toList, true, true⟩)]⟩

def crew : Crew Tree :=
  .ofTree session.project ⟨report, 1⟩ (parseReport report) fun _ => ⟨.success, "", []⟩

theorem discloses_secret : crew.WorksOn id session.project ∧ session.Discloses id crew .zero tree :=
  ⟨Crew.worksOn_ofTree .., Session.discloses (Crew.worksOn_ofTree ..) .zero tree⟩

def sending : Sending Tree where
  found := tree
  earlier := []
  request :=
    { info := ⟨0, 1, 1, false⟩
      errors := [("../secret.txt", [⟨"found", "../secret.txt", 1, .other, none, none⟩])]
      contents := [("../secret.txt", "key")]
      projectPath := "/p" }

theorem sending_mem : sending ∈ session.sendings crew .zero tree := by decide +kernel

theorem not_discreet : ¬ session.Discreet crew .zero tree := by
  intro discreet
  have inside := discreet sending sending_mem ("../secret.txt", "key") List.mem_cons_self
  exact absurd inside (by decide +kernel)

end Leak
end Mender
