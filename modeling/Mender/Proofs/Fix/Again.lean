import Mender.Proofs.Fix.Applicator
import Mender.Proofs.Fix.Lines
import Mender.Proofs.Fix.Obstacles

/-! Fixes that are applied again. If they put in one line each, no file has more or fewer lines for them,
so what keeps a fix from being applied is there the second time as it was the first; and of the texts that
a line is given, the last one stays, however often the others are written before it. -/

namespace Mender

open Mender.Text

/-- What of a node decides whether a fix can be applied to it: all of it but the texts of its lines. -/
inductive Outline where
  | directory
  | file (readable writable : Bool) (lines : Nat)

def Node.outline : Node → Outline
  | .file f => .file f.readable f.writable (lines (decode f.bytes)).length
  | .directory => .directory

/-- Why nothing can be read where there is this. -/
def Outline.readFault? : Option Outline → Option FileFault
  | none => some .missing
  | some .directory => some .readsDirectory
  | some (.file readable _ _) => if readable then none else some .denied

namespace Tree

variable {t t' : Tree} {p : Path}

def outline? (t : Tree) (p : Path) : Option Outline := (t.node? p).map Node.outline

theorem exists?_eq_isSome (t : Tree) (p : Path) : t.exists? p = (t.outline? p).isSome := by
  rw [exists?, outline?, Option.isSome_map]

theorem readText_eq_error_iff {fault : FileFault} :
    t.readText p = .error fault ↔ Outline.readFault? (t.outline? p) = some fault := by
  cases h : t.node? p with
  | none => simp [readText, read, outline?, Outline.readFault?, Except.map, h]
  | some node =>
    cases node with
    | directory => simp [readText, read, outline?, Node.outline, Outline.readFault?, Except.map, h]
    | file f => cases hf : f.readable <;>
        simp [readText, read, outline?, Node.outline, Outline.readFault?, Except.map, h, hf]

theorem exists_file_of_outline {f : File} (same : t'.outline? p = t.outline? p)
    (h : t.node? p = some (.file f)) :
    ∃ f', t'.node? p = some (.file f') ∧ f'.readable = f.readable ∧ f'.writable = f.writable ∧
      (lines (decode f'.bytes)).length = (lines (decode f.bytes)).length := by
  rw [outline?, outline?, h] at same
  obtain ⟨node, hnode, hout⟩ := Option.map_eq_some_iff.1 same
  cases node with
  | directory => cases hout
  | file f' =>
    injection hout with readable writable length
    exact ⟨f', hnode, readable, writable, length⟩

/-- The tree with one file changed, if there is a file. -/
def update (t : Tree) (p : Path) (change : File → File) : Tree :=
  match t.node? p with
  | some (.file f) => t.set p (.file (change f))
  | _ => t

theorem update_of_file {f : File} (h : t.node? p = some (.file f)) (change : File → File) :
    t.update p change = t.set p (.file (change f)) := by
  rw [update, h]

theorem update_of_no_file (h : ∀ f, t.node? p ≠ some (.file f)) (change : File → File) :
    t.update p change = t := by
  unfold update
  split
  case h_1 f hf => exact absurd hf (h f)
  case h_2 => rfl

theorem node?_update_of_ne {q : Path} (hne : q ≠ p) (t : Tree) (change : File → File) :
    (t.update p change).node? q = t.node? q := by
  unfold update
  split
  case h_1 f hf => rw [node?_set_file hf, if_neg hne]
  case h_2 => rfl

theorem outline?_update {change : File → File}
    (same : ∀ f, (Node.file (change f)).outline = (Node.file f).outline) (t : Tree) (p q : Path) :
    (t.update p change).outline? q = t.outline? q := by
  by_cases h : ∃ f, t.node? p = some (.file f)
  · obtain ⟨f, hf⟩ := h
    rw [update_of_file hf, outline?, node?_set_file hf]
    split
    case isTrue hq => rw [hq, outline?, hf, Option.map_some, Option.map_some, same]
    case isFalse => rfl
  · rw [update_of_no_file (not_exists.1 h)]

theorem update_update (t : Tree) (p : Path) (first second : File → File) :
    (t.update p first).update p second = t.update p (second ∘ first) := by
  by_cases h : ∃ f, t.node? p = some (.file f)
  · obtain ⟨f, hf⟩ := h
    rw [update_of_file hf, update_of_file (node?_set_self t p _), set_set, update_of_file hf]
    rfl
  · have none := not_exists.1 h
    rw [update_of_no_file none, update_of_no_file none, update_of_no_file none]

theorem update_comm {q : Path} (hne : p ≠ q) (t : Tree) (first second : File → File) :
    (t.update p first).update q second = (t.update q second).update p first := by
  have hp := node?_update_of_ne hne t second
  have hq := node?_update_of_ne hne.symm t first
  by_cases h : ∃ f, t.node? p = some (.file f)
  case neg =>
    have none := not_exists.1 h
    rw [update_of_no_file none, update_of_no_file fun f hf => none f (hp.symm.trans hf)]
  by_cases h' : ∃ f, t.node? q = some (.file f)
  case neg =>
    have none := not_exists.1 h'
    rw [update_of_no_file none, update_of_no_file fun f hf => none f (hq.symm.trans hf)]
  obtain ⟨f, hf⟩ := h
  obtain ⟨g, hg⟩ := h'
  rw [update_of_file (hq.trans hg), update_of_file (hp.trans hf), update_of_file hf, update_of_file hg,
    set_comm_of_file hf hne]

end Tree

def File.withLine (f : File) (i : Nat) (text : List Char) : File :=
  { f with bytes := encode (unlines ((lines (decode f.bytes)).set i text)) }

namespace File

variable {x : List Char}

theorem lines_withLine (hx : '\n' ∉ x) (f : File) (i : Nat) :
    lines (decode (f.withLine i x).bytes) = (lines (decode f.bytes)).set i x := by
  rw [withLine, decode_encode, lines_unlines]
  · exact mt (List.set_eq_nil_iff _ _).1 (lines_ne_nil _)
  · intro l hl
    rcases List.mem_or_eq_of_mem_set hl with hl | rfl
    · exact not_mem_of_mem_lines hl
    · exact hx

theorem outline_withLine (hx : '\n' ∉ x) (f : File) (i : Nat) :
    (Node.file (f.withLine i x)).outline = (Node.file f).outline := by
  rw [Node.outline, lines_withLine hx, List.length_set]
  rfl

theorem withLine_congr {f f' : File} {i : Nat} (readable : f'.readable = f.readable)
    (writable : f'.writable = f.writable)
    (same : (lines (decode f'.bytes)).set i x = (lines (decode f.bytes)).set i x) :
    f'.withLine i x = f.withLine i x := by
  simp only [withLine, readable, writable, same]

theorem withLine_withLine (hx : '\n' ∉ x) (f : File) (i : Nat) :
    (f.withLine i x).withLine i x = f.withLine i x :=
  withLine_congr rfl rfl (by rw [lines_withLine hx, List.set_set])

/-- What was written in a line does not matter once it is written there again. -/
theorem withLine_withLine_withLine {y : List Char} (hx : '\n' ∉ x) (hy : '\n' ∉ y) (f : File) (i j : Nat) :
    ((f.withLine i x).withLine j y).withLine i x = (f.withLine j y).withLine i x := by
  refine withLine_congr rfl rfl ?_
  rw [lines_withLine hy, lines_withLine hx, lines_withLine hy]
  by_cases h : i = j
  · rw [h, List.set_set, List.set_set, List.set_set]
  · rw [List.set_comm _ _ h, List.set_set]

end File

namespace Fix

variable {root : Path} {t t' : Tree} {f g : Fix} {fs : List Fix} {o : Obstacle}

def obstacle? (root : Path) (t : Tree) (f : Fix) : Option Obstacle :=
  match f.applyTo root t with
  | .ok _ => none
  | .error o => some o

section Attempt

theorem obstacle?_eq_some_iff : obstacle? root t f = some o ↔ Hinders root t f o := by
  rw [← applyTo_eq_error_iff, obstacle?]
  cases f.applyTo root t <;> simp

theorem attempt_of_obstacle (h : obstacle? root t f = some o) : attempt root t f = t := by
  rw [attempt, applyTo_eq_error_iff.2 (obstacle?_eq_some_iff.1 h)]

theorem exists_of_free (h : obstacle? root t f = none) :
    ∃ i, f.line.row? = some i ∧
      attempt root t f = t.update (f.target root) (·.withLine i f.fixed.toList) := by
  unfold obstacle? at h
  split at h
  case h_1 t' ok =>
    obtain ⟨file, s, -, hfile, -, hs, rfl⟩ := of_applyTo_eq_ok ok
    obtain ⟨i, hi, -, rfl⟩ := replaceLine_eq_some_iff.1 hs
    exact ⟨i, hi, by rw [attempt, ok, Tree.update_of_file hfile]; rfl⟩
  case h_2 => cases h

theorem outcomes_cons (root : Path) (t : Tree) (f : Fix) (fs : List Fix) :
    outcomes root t (f :: fs) = (f, obstacle? root t f) :: outcomes root (attempt root t f) fs := by
  rw [outcomes, obstacle?, attempt]
  cases f.applyTo root t <;> rfl

end Attempt

section Outline

/-- What hinders a fix is in the outline of its file. -/
theorem Hinders.of_outline (same : t'.outline? (f.target root) = t.outline? (f.target root))
    (h : Hinders root t f o) : Hinders root t' f o := by
  cases h with
  | outside outside => exact .outside outside
  | notFound inside absent =>
    exact .notFound inside (by rw [Tree.exists?_eq_isSome, same, ← Tree.exists?_eq_isSome, absent])
  | unread inside there read =>
    refine .unread inside ?_ ?_
    · rw [Tree.exists?_eq_isSome, same, ← Tree.exists?_eq_isSome, there]
    · rw [Tree.readText_eq_error_iff, same, ← Tree.readText_eq_error_iff, read]
  | outOfRange inside read noLine =>
    obtain ⟨file, hfile, readable, rfl⟩ := Tree.readText_eq_ok_iff.1 read
    obtain ⟨file', hfile', readable', -, length⟩ := Tree.exists_file_of_outline same hfile
    rw [← length] at noLine ⊢
    exact .outOfRange inside (Tree.readText_eq_ok_iff.2 ⟨file', hfile', readable'.trans readable, rfl⟩) noLine
  | unwritten inside read named low high write =>
    obtain ⟨file, hfile, readable, rfl⟩ := Tree.readText_eq_ok_iff.1 read
    obtain ⟨file', hfile', readable', writable', length⟩ := Tree.exists_file_of_outline same hfile
    rw [← length] at high
    refine .unwritten inside (Tree.readText_eq_ok_iff.2 ⟨file', hfile', readable'.trans readable, rfl⟩)
      named low high ?_
    rw [Tree.writeText_file hfile] at write
    rw [Tree.writeText_file hfile', writable']
    split at write
    case isTrue => cases write
    case isFalse denied => rw [if_neg denied, write]

theorem obstacle?_of_outline (same : t'.outline? (f.target root) = t.outline? (f.target root)) :
    obstacle? root t' f = obstacle? root t f := by
  refine Option.ext fun o => ?_
  rw [obstacle?_eq_some_iff, obstacle?_eq_some_iff]
  exact ⟨.of_outline same.symm, .of_outline same⟩

/-- A fix of one line leaves the outlines as they are. -/
theorem outline?_attempt (single : '\n' ∉ f.fixed.toList) (root : Path) (t : Tree) (p : Path) :
    (attempt root t f).outline? p = t.outline? p := by
  cases h : obstacle? root t f with
  | some o => rw [attempt_of_obstacle h]
  | none =>
    obtain ⟨i, -, hattempt⟩ := exists_of_free h
    rw [hattempt]
    exact Tree.outline?_update (fun file => File.outline_withLine single file i) t _ p

theorem outline?_applyAll (single : ∀ f ∈ fs, '\n' ∉ f.fixed.toList) (root : Path) (t : Tree) (p : Path) :
    (applyAll root t fs).outline? p = t.outline? p := by
  induction fs generalizing t with
  | nil => rfl
  | cons f fs ih =>
    rw [List.forall_mem_cons] at single
    rw [applyAll, List.foldl_cons, ← applyAll, ih single.2, outline?_attempt single.1]

/-- What becomes of each fix is what would become of it alone. -/
theorem outcomes_eq_map (single : ∀ f ∈ fs, '\n' ∉ f.fixed.toList) (root : Path) (t : Tree) :
    outcomes root t fs = fs.map fun f => (f, obstacle? root t f) := by
  induction fs generalizing t with
  | nil => rfl
  | cons f fs ih =>
    rw [List.forall_mem_cons] at single
    have later (g : Fix) : obstacle? root (attempt root t f) g = obstacle? root t g :=
      obstacle?_of_outline (outline?_attempt single.1 root t _)
    rw [outcomes_cons, ih single.2, List.map_cons]
    simp only [later]

theorem outcomes_applyAll (single : ∀ f ∈ fs, '\n' ∉ f.fixed.toList) (root : Path) (t : Tree) :
    outcomes root (applyAll root t fs) fs = outcomes root t fs := by
  have same (f : Fix) : obstacle? root (applyAll root t fs) f = obstacle? root t f :=
    obstacle?_of_outline (outline?_applyAll single root t _)
  rw [outcomes_eq_map single, outcomes_eq_map single]
  simp only [same]

end Outline

section Again

variable (root : Path)

/-- Where the outlines are the same, a fix replaces the same line, or nothing at all. -/
theorem attempt_eq_self_or_update (f : Fix) (t : Tree) :
    (∀ t', (∀ p, t'.outline? p = t.outline? p) → attempt root t' f = t') ∨
      ∃ i, ∀ t', (∀ p, t'.outline? p = t.outline? p) →
        attempt root t' f = t'.update (f.target root) (·.withLine i f.fixed.toList) := by
  cases h : obstacle? root t f with
  | some o => exact .inl fun t' same => attempt_of_obstacle ((obstacle?_of_outline (same _)).trans h)
  | none =>
    obtain ⟨i, hi, -⟩ := exists_of_free h
    refine .inr ⟨i, fun t' same => ?_⟩
    obtain ⟨i', hi', hattempt⟩ := exists_of_free ((obstacle?_of_outline (same _)).trans h)
    cases hi.symm.trans hi'
    exact hattempt

/-- A fix that was tried is tried again to no effect. -/
theorem attempt_attempt (single : '\n' ∉ f.fixed.toList) (t : Tree) :
    attempt root (attempt root t f) f = attempt root t f := by
  have same := outline?_attempt single root t
  rcases attempt_eq_self_or_update root f t with idle | ⟨i, update⟩
  · rw [idle t fun _ => rfl, idle t fun _ => rfl]
  · rw [update _ same, update t fun _ => rfl, Tree.update_update]
    exact congrArg _ (funext fun file => File.withLine_withLine single file i)

/-- A fix that comes again after another one need not come before it. -/
theorem attempt_attempt_attempt (hf : '\n' ∉ f.fixed.toList) (hg : '\n' ∉ g.fixed.toList) (t : Tree) :
    attempt root (attempt root (attempt root t f) g) f = attempt root (attempt root t g) f := by
  have first := outline?_attempt hf root t
  have other := outline?_attempt hg root t
  have both (p : Path) := (outline?_attempt hg root (attempt root t f) p).trans (first p)
  rcases attempt_eq_self_or_update root f t with idle | ⟨i, update⟩
  · rw [idle t fun _ => rfl]
  rcases attempt_eq_self_or_update root g t with idle' | ⟨j, update'⟩
  · rw [idle' _ first, idle' t fun _ => rfl, attempt_attempt root hf]
  rw [update _ both, update' _ first, update t fun _ => rfl, update _ other, update' t fun _ => rfl]
  by_cases same : f.target root = g.target root
  · rw [same, Tree.update_update, Tree.update_update, Tree.update_update]
    exact congrArg _ (funext fun file => File.withLine_withLine_withLine hf hg file i j)
  · have twice : (fun file : File => file.withLine i f.fixed.toList) ∘ (File.withLine · i f.fixed.toList) =
        (File.withLine · i f.fixed.toList) := funext fun file => File.withLine_withLine hf file i
    rw [Tree.update_comm same, Tree.update_update, twice]

theorem attempt_applyAll_attempt (hf : '\n' ∉ f.fixed.toList) (single : ∀ g ∈ fs, '\n' ∉ g.fixed.toList)
    (t : Tree) : attempt root (applyAll root (attempt root t f) fs) f = attempt root (applyAll root t fs) f := by
  induction fs generalizing t with
  | nil => exact attempt_attempt root hf t
  | cons g fs ih =>
    rw [List.forall_mem_cons] at single
    simp only [applyAll, List.foldl_cons] at ih ⊢
    rw [← ih single.2, attempt_attempt_attempt root hf single.1, ih single.2]

/-- Fixes that come again after others need not come before them. -/
theorem applyAll_applyAll_applyAll (single : ∀ f ∈ fs, '\n' ∉ f.fixed.toList) {gs : List Fix}
    (single' : ∀ g ∈ gs, '\n' ∉ g.fixed.toList) (t : Tree) :
    applyAll root (applyAll root (applyAll root t fs) gs) fs = applyAll root (applyAll root t gs) fs := by
  -- the first fix goes over to the end of the others, and the rest of the list then comes again after them
  induction fs generalizing gs t with
  | nil => rfl
  | cons f fs ih =>
    rw [List.forall_mem_cons] at single
    have later : ∀ g ∈ gs ++ [f], '\n' ∉ g.fixed.toList := by
      simpa [or_imp, forall_and] using ⟨single', single.1⟩
    have between : ∀ g ∈ fs ++ gs, '\n' ∉ g.fixed.toList := by
      simpa [or_imp, forall_and] using ⟨single.2, single'⟩
    calc applyAll root (applyAll root (applyAll root t (f :: fs)) gs) (f :: fs)
      _ = applyAll root (attempt root (applyAll root (attempt root t f) (fs ++ gs)) f) fs := by
        rw [applyAll_append]
        rfl
      _ = applyAll root (applyAll root (applyAll root t fs) (gs ++ [f])) fs := by
        rw [attempt_applyAll_attempt root single.1 between, applyAll_append, applyAll_append]
        rfl
      _ = applyAll root (applyAll root t gs) (f :: fs) := by
        rw [ih single.2 later, applyAll_append]
        rfl

theorem applyAll_applyAll (single : ∀ f ∈ fs, '\n' ∉ f.fixed.toList) (t : Tree) :
    applyAll root (applyAll root t fs) fs = applyAll root t fs := by
  have none : ∀ g ∈ ([] : List Fix), '\n' ∉ g.fixed.toList := fun _ hg => absurd hg List.not_mem_nil
  exact applyAll_applyAll_applyAll root single none t

end Again

end Fix

/-- Fixes of one line each, applied a second time, change no file, and the same ones fail for the same
reasons. -/
theorem Applicator.apply_again {fs : List Fix} (single : ∀ f ∈ fs, '\n' ∉ f.fixed.toList) (a : Applicator)
    (w : World) :
    let first := (a.apply fs).run w
    let second := (first.1.2.apply fs).run first.2
    second.2.tree = first.2.tree ∧ second.1 = first.1 := by
  have failures : Fix.failures a.root (Fix.applyAll a.root w.tree fs) fs =
      Fix.failures a.root w.tree fs := by
    rw [Fix.failures, Fix.outcomes_applyAll single, Fix.failures]
  simp only [run_apply, World.tree_withTree, Fix.applyAll_applyAll a.root single, failures, and_self]

namespace Repeated

/-! Fixes of which two go to one line, one goes to a file with a byte that is no text, and the others fail,
each in its own way. -/

def root : Path := ["p".toList]

def place (name : String) : Path := ["p".toList, name.toList]

def applicator : Applicator := ⟨root, []⟩

def world : World where
  tree :=
    ⟨[(place "a.php", .file ⟨encode "1\n2\n3".toList, true, true⟩),
      (place "b.php", .file ⟨[0xE9, 0x0A, 0xE9], true, true⟩),
      (place "kept.php", .file ⟨encode "1".toList, true, false⟩),
      (place "locked.php", .file ⟨[], false, true⟩)]⟩
  directory := []
  environment := []
  debug := false
  exits := ⟨⟨none, none, none, none⟩, []⟩
  replies := ⟨.ok "", []⟩
  cache := .empty
  trace := []

def fixes : List Fix :=
  [⟨"a.php", 1, "1", "one"⟩, ⟨"a.php", 3, "3", ""⟩, ⟨"./a.php", 1, "one", "uno"⟩, ⟨"b.php", 1, "", "x"⟩,
    ⟨"a.php", 4, "", ""⟩, ⟨"../a.php", 1, "", ""⟩, ⟨"c.php", 1, "", ""⟩, ⟨"kept.php", 1, "", ""⟩,
    ⟨"locked.php", 1, "", ""⟩]

theorem single : ∀ f ∈ fixes, '\n' ∉ f.fixed.toList := by decide +kernel

theorem same_again :
    let first := (applicator.apply fixes).run world
    let second := (first.1.2.apply fixes).run first.2
    (second.2.tree = first.2.tree ∧ second.1 = first.1) ∧
      first.1.2.lastFailures.map (·.2) =
        [.outOfRange 4 3, .outside, .notFound, .file "/p/kept.php" .denied,
          .file "/p/locked.php" .denied] ∧
      first.2.tree.readText (place "a.php") = .ok "uno\n2\n".toList ∧
      first.2.tree.read (place "b.php") = .ok [0x78, 0x0A, 0xEF, 0xBF, 0xBD] :=
  ⟨Applicator.apply_again single applicator world, by decide +kernel⟩

/-- A text of two lines moves the line below down, and then stands there as well. -/
example :
    let split : Fix := ⟨"a.php", 1, "1", "1\n1"⟩
    (Fix.applyAll root world.tree [split]).readText (place "a.php") = .ok "1\n1\n2\n3".toList ∧
      (Fix.applyAll root world.tree [split, split]).readText (place "a.php") =
        .ok "1\n1\n1\n2\n3".toList := by
  decide +kernel

end Repeated

end Mender
