import Mender.Proofs.Fix.Obstacles
import Mender.Proofs.Tree.Normal

/-! Which texts lead out of a project, as the applicator tests it. The test looks at how the way from the
root starts, and tells by that, for every text, whether the names of the root start those of the place. -/

namespace Mender.Path

/-- What the test for containment in `base` lets through, and what it refuses. -/
structure Delimits (base : Path) : Prop where
  itself : contains base base = true
  /-- The place above all others has no names. -/
  everything : base = [] → ∀ text, contains base (resolve base text) = true
  /-- Names may start with two dots. -/
  dotted : ∀ name, name ≠ [] → '/' ∉ name → contains base (resolve base (up ++ name)) = true
  spelled : ∀ down, IsNormal down → contains base (resolve base (chars (base ++ down))) = true
  /-- A place beside the root may share the start of its name. -/
  sibling : base ≠ [] → ∀ ending, ending ≠ [] → '/' ∉ ending →
    contains base (resolve base (chars base ++ ending)) = false
  /-- A way up has to come down by the same names. -/
  climbing : ∀ n down, IsNormal down →
    (contains base (resolve base (detour n down)) = true ↔ base.drop (base.length - n) <+: down)

theorem delimits {base : Path} (h : IsNormal base) : Delimits base where
  itself := by
    have nowhere : contains base (base ++ []) = true := contains_append (by simp)
    rwa [List.append_nil] at nowhere
  everything := by
    rintro rfl text
    exact (contains_resolve_iff _ _).2 List.nil_prefix
  dotted name some noSlash := by
    have leads : resolve base (up ++ name) = base ++ [up ++ name] := by
      have down : IsNormal [up ++ name] := List.forall_mem_singleton.2 (isSegment_dotted some noSlash)
      have way := resolve_detour down base 0
      rw [detour, List.replicate_zero, List.nil_append, List.intercalate_singleton, Nat.sub_zero,
        List.take_length] at way
      exact way
    rw [contains_resolve_iff, leads]
    exact List.prefix_append _ _
  spelled down hdown := by
    rw [contains_resolve_iff, resolve_chars (h.append hdown)]
    exact List.prefix_append _ _
  sibling some ending hending noSlash := by
    obtain ⟨above, name, rfl⟩ := (List.eq_nil_or_concat' base).resolve_left some
    obtain ⟨habove, hname⟩ := List.forall_mem_append.1 h
    have last : IsSegment (name ++ ending) := (hname name (List.mem_singleton_self _)).append hending noSlash
    have beside : IsNormal (above ++ [name ++ ending]) :=
      IsNormal.append habove (List.forall_mem_singleton.2 last)
    rw [← Bool.not_eq_true, contains_resolve_iff, chars_concat_append, resolve_chars beside]
    exact not_isPrefix_sibling hending
  climbing n down hdown := by
    rw [contains_resolve_iff, resolve_detour hdown, isPrefix_take_append_iff]

def projectAt (directory root : List Char) : Path := resolve (resolve [] directory) root

theorem isNormal_projectAt (directory root : List Char) : IsNormal (projectAt directory root) :=
  isNormal_resolve (isNormal_resolve isNormal_nil _) _

end Mender.Path

namespace Mender.Fix

/-- Whatever texts name the project and the file, a fix is kept out if and only if the names of the project
do not start those of the file, both of them named without detours. -/
theorem applyTo_delimited (directory root : List Char) :
    let base := Path.projectAt directory root
    Path.IsNormal base ∧
      (∀ file, Path.IsNormal (Path.resolve base file) ∧
        (Path.contains base (Path.resolve base file) = true ↔ base <+: Path.resolve base file)) ∧
      (∀ (f : Fix) (t : Tree), f.applyTo base t = .error .outside ↔ ¬ base <+: f.target base) ∧
      Path.Delimits base := by
  intro base
  have normal : Path.IsNormal base := Path.isNormal_projectAt directory root
  refine ⟨normal, fun file => ⟨?_, ?_⟩, fun f t => ?_, Path.delimits normal⟩
  · exact Path.isNormal_resolve normal file
  · exact Path.contains_resolve_iff base file
  · rw [applyTo_eq_outside_iff, ← Bool.not_eq_true, contains_target_iff]

example : Path.contains (Path.projectAt "/".toList "app".toList) (Path.resolve [] "/app2/x".toList) =
    false := by
  decide +kernel

end Mender.Fix
