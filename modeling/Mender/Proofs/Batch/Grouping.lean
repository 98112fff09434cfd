import Mathlib.Data.List.Induction
import Mathlib.Data.List.Nodup
import Mender.Batch.Basic

/-! What grouping by file comes to: files stand in the order in which they are first seen, each once, and
with each of them its own diagnostics, in the order in which they came. -/

namespace Mender.Groups

/-- The files of diagnostics, in the order in which they are first seen. -/
def firstSeen (ds : List Diagnostic) : List String := (ds.map (·.file)).eraseDups

def ofFile (file : String) (ds : List Diagnostic) : List Diagnostic := ds.filter (·.file = file)

variable {ds : List Diagnostic} {d : Diagnostic} {file : String}

@[simp] theorem mem_firstSeen : file ∈ firstSeen ds ↔ ∃ d ∈ ds, d.file = file := by
  simp [firstSeen]

theorem firstSeen_concat_of_mem (h : d.file ∈ firstSeen ds) : firstSeen (ds ++ [d]) = firstSeen ds := by
  have none : [d.file].removeAll (ds.map (·.file)) = [] := by simpa [List.removeAll] using h
  rw [firstSeen, List.map_append, List.eraseDups_append, List.map_singleton, none, List.eraseDups_nil,
    List.append_nil]
  rfl

theorem firstSeen_concat_of_not_mem (h : d.file ∉ firstSeen ds) :
    firstSeen (ds ++ [d]) = firstSeen ds ++ [d.file] := by
  have all : [d.file].removeAll (ds.map (·.file)) = [d.file] := by simpa [List.removeAll] using h
  rw [firstSeen, List.map_append, List.eraseDups_append, List.map_singleton, all]
  rfl

theorem nodup_firstSeen (ds : List Diagnostic) : (firstSeen ds).Nodup := by
  induction ds using List.reverseRecOn with
  | nil => exact .nil
  | append_singleton ds d ih =>
    by_cases h : d.file ∈ firstSeen ds
    · rwa [firstSeen_concat_of_mem h]
    · rw [firstSeen_concat_of_not_mem h, ← List.concat_eq_append]
      exact ih.concat h

theorem ofFile_concat (file : String) (ds : List Diagnostic) (d : Diagnostic) :
    ofFile file (ds ++ [d]) = if d.file = file then ofFile file ds ++ [d] else ofFile file ds := by
  by_cases h : d.file = file <;> simp [ofFile, h]

theorem ofFile_eq_nil (h : file ∉ firstSeen ds) : ofFile file ds = [] :=
  List.filter_eq_nil_iff.2 fun d hd same => h (mem_firstSeen.2 ⟨d, hd, of_decide_eq_true same⟩)

/-- Groups of other files stay as they are. -/
theorem map_congr_of_not_mem {files : List String} (h : d.file ∉ files)
    (group : String → List Diagnostic) :
    files.map (fun file => (file, if d.file = file then group file ++ [d] else group file)) =
      files.map fun file => (file, group file) := by
  refine List.map_congr_left fun file hfile => ?_
  have other : d.file ≠ file := by
    rintro rfl
    exact h hfile
  rw [if_neg other]

/-- A diagnostic of a file that has a group goes to the end of that group. -/
theorem add_of_mem {files : List String} (single : files.Nodup) (h : d.file ∈ files)
    (group : String → List Diagnostic) :
    add d (files.map fun file => (file, group file)) =
      files.map fun file => (file, if d.file = file then group file ++ [d] else group file) := by
  induction files with
  | nil => cases h
  | cons f files ih =>
    rw [List.nodup_cons] at single
    rw [List.map_cons, List.map_cons, add]
    by_cases same : f = d.file
    · subst same
      rw [map_congr_of_not_mem single.1, if_pos rfl, if_pos rfl]
    · have later := (List.mem_cons.1 h).resolve_left (Ne.symm same)
      rw [if_neg same, if_neg (Ne.symm same), ih single.2 later]

theorem add_of_not_mem {gs : Groups} (h : d.file ∉ gs.files) : add d gs = gs ++ [(d.file, [d])] := by
  induction gs with
  | nil => rfl
  | cons g gs ih =>
    rw [files, List.map_cons, List.mem_cons, not_or] at h
    rw [add, if_neg (Ne.symm h.1), ih h.2, List.cons_append]

theorem ofList_concat (ds : List Diagnostic) (d : Diagnostic) : ofList (ds ++ [d]) = add d (ofList ds) :=
  List.foldl_concat ..

theorem ofList_eq (ds : List Diagnostic) :
    ofList ds = (firstSeen ds).map fun file => (file, ofFile file ds) := by
  induction ds using List.reverseRecOn with
  | nil => rfl
  | append_singleton ds d ih =>
    rw [ofList_concat, ih]
    simp only [ofFile_concat]
    by_cases h : d.file ∈ firstSeen ds
    · rw [firstSeen_concat_of_mem h, add_of_mem (nodup_firstSeen ds) h]
    · rw [firstSeen_concat_of_not_mem h, add_of_not_mem (by simpa [files] using h), List.map_append,
        map_congr_of_not_mem h, List.map_singleton, if_pos rfl, ofFile_eq_nil h, List.nil_append]

theorem toList_ofList (ds : List Diagnostic) :
    (ofList ds).toList = (firstSeen ds).flatMap fun file => ofFile file ds := by
  rw [ofList_eq, toList, List.flatMap_map]

section Filter

variable {p : String → Bool}

theorem filter_firstSeen (p : String → Bool) (ds : List Diagnostic) :
    (firstSeen ds).filter p = firstSeen (ds.filter fun d => p d.file) := by
  induction ds using List.reverseRecOn with
  | nil => rfl
  | append_singleton ds d ih =>
    rw [List.filter_append]
    cases hp : p d.file with
    | true =>
      have last : [d].filter (fun d => p d.file) = [d] := List.filter_cons_of_pos hp
      have kept : d.file ∈ firstSeen (ds.filter fun d => p d.file) ↔ d.file ∈ firstSeen ds := by
        rw [← ih, List.mem_filter, and_iff_left hp]
      rw [last]
      by_cases h : d.file ∈ firstSeen ds
      · rw [firstSeen_concat_of_mem h, firstSeen_concat_of_mem (kept.2 h), ih]
      · rw [firstSeen_concat_of_not_mem h, firstSeen_concat_of_not_mem (mt kept.1 h), List.filter_append, ih,
          List.filter_cons_of_pos hp, List.filter_nil]
    | false =>
      have last : [d].filter (fun d => p d.file) = [] := List.filter_cons_of_neg (by simp [hp])
      rw [last, List.append_nil]
      by_cases h : d.file ∈ firstSeen ds
      · rw [firstSeen_concat_of_mem h, ih]
      · rw [firstSeen_concat_of_not_mem h, List.filter_append, List.filter_cons_of_neg (by simp [hp]),
          List.filter_nil, List.append_nil, ih]

theorem ofFile_filter (h : p file = true) (ds : List Diagnostic) :
    ofFile file (ds.filter fun d => p d.file) = ofFile file ds := by
  rw [ofFile, ofFile, List.filter_filter]
  refine List.filter_congr fun d _ => ?_
  by_cases same : d.file = file <;> simp [same, h]

/-- Leaving out groups is leaving out the diagnostics of their files. -/
theorem filter_ofList (p : String → Bool) (ds : List Diagnostic) :
    (ofList ds).filter (fun g => p g.1) = ofList (ds.filter fun d => p d.file) := by
  rw [ofList_eq, ofList_eq, ← filter_firstSeen, List.filter_map]
  refine List.map_congr_left fun file hfile => ?_
  have kept : p file = true := (List.mem_filter.1 hfile).2
  rw [ofFile_filter kept]

end Filter

end Mender.Groups
