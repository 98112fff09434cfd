import Mender.Proofs.Batch.Partition

/-! Grouping by file is stable: files and the diagnostics of a file stay in the order in which they came,
and none is lost. What was grouped once is grouped the same way again, though the order of its diagnostics
may be another one than before. -/

namespace Mender.Groups

variable {ds group : List Diagnostic} {d : Diagnostic} {gs hs : Groups} {file : String}

theorem files_ofList (ds : List Diagnostic) : (ofList ds).files = firstSeen ds := by
  rw [ofList_eq, files, List.map_map]
  exact List.map_id' _

theorem ofFile_ne_nil (h : file ∈ firstSeen ds) : ofFile file ds ≠ [] := by
  obtain ⟨d, hd, same⟩ := mem_firstSeen.1 h
  exact List.ne_nil_of_mem (List.mem_filter.2 ⟨hd, decide_eq_true same⟩)

theorem eq_ofFile_of_mem {g : String × List Diagnostic} (h : g ∈ ofList ds) :
    g.2 = ofFile g.1 ds ∧ g.2 ≠ [] := by
  rw [ofList_eq] at h
  obtain ⟨file, hfile, rfl⟩ := List.mem_map.1 h
  exact ⟨rfl, ofFile_ne_nil hfile⟩

/-- No file stands twice, and with each of them stand some diagnostics, all of them its own. -/
structure IsProper (gs : Groups) : Prop where
  single : gs.files.Nodup
  own : ∀ g ∈ gs, g.2 ≠ [] ∧ ∀ d ∈ g.2, d.file = g.1

theorem isProper_ofList (ds : List Diagnostic) : (ofList ds).IsProper where
  single := by
    rw [files_ofList]
    exact nodup_firstSeen ds
  own g hg := by
    obtain ⟨group, some⟩ := eq_ofFile_of_mem hg
    refine ⟨some, fun d hd => ?_⟩
    rw [group] at hd
    exact of_decide_eq_true (List.mem_filter.1 hd).2

section Add

theorem files_append (gs hs : Groups) : files (gs ++ hs) = gs.files ++ hs.files := List.map_append

/-- The last group grows, if the file has no other. -/
theorem add_concat (other : d.file ∉ gs.files) (group : List Diagnostic) :
    add d (gs ++ [(d.file, group)]) = gs ++ [(d.file, group ++ [d])] := by
  induction gs with
  | nil => exact if_pos rfl
  | cons g gs ih =>
    rw [files, List.map_cons, List.mem_cons, not_or] at other
    rw [List.cons_append, add, if_neg (Ne.symm other.1), ih other.2, List.cons_append]

theorem foldl_add_concat (other : file ∉ gs.files) (own : ∀ d ∈ ds, d.file = file)
    (group : List Diagnostic) :
    ds.foldl (fun gs d => add d gs) (gs ++ [(file, group)]) = gs ++ [(file, group ++ ds)] := by
  induction ds generalizing group with
  | nil => rw [List.append_nil, List.foldl_nil]
  | cons d ds ih =>
    rw [List.forall_mem_cons] at own
    obtain ⟨rfl, own⟩ := own
    rw [List.foldl_cons, add_concat other, ih own, List.append_assoc, List.singleton_append]

theorem foldl_add_of_new (new : file ∉ gs.files) (some : ds ≠ []) (own : ∀ d ∈ ds, d.file = file) :
    ds.foldl (fun gs d => add d gs) gs = gs ++ [(file, ds)] := by
  cases ds with
  | nil => exact absurd rfl some
  | cons d ds =>
    rw [List.forall_mem_cons] at own
    obtain ⟨rfl, own⟩ := own
    rw [List.foldl_cons, add_of_not_mem new, foldl_add_concat new own, List.singleton_append]

theorem foldl_add_toList (h : gs.IsProper) (new : ∀ file ∈ gs.files, file ∉ hs.files) :
    gs.toList.foldl (fun gs d => add d gs) hs = hs ++ gs := by
  induction gs generalizing hs with
  | nil => exact (List.append_nil hs).symm
  | cons g gs ih =>
    have single := h.single
    rw [files, List.map_cons, List.nodup_cons] at single
    rw [files, List.map_cons, List.forall_mem_cons] at new
    obtain ⟨⟨some, own⟩, rest⟩ := List.forall_mem_cons.1 h.own
    have later : ∀ file ∈ files gs, file ∉ files (hs ++ [g]) := by
      intro file hfile hmem
      rw [files_append, List.mem_append] at hmem
      rcases hmem with hmem | hmem
      · exact new.2 file hfile hmem
      · obtain rfl : file = g.1 := List.mem_singleton.1 hmem
        exact single.1 hfile
    rw [toList, List.flatMap_cons, List.foldl_append, foldl_add_of_new new.1 some own, ← toList,
      ih ⟨single.2, rest⟩ later, List.append_assoc, List.singleton_append]

end Add

/-- Groups are found again in the diagnostics they hold, if grouping can make them at all. -/
theorem isProper_iff : gs.IsProper ↔ ofList gs.toList = gs := by
  constructor
  · intro h
    exact foldl_add_toList h fun _ _ => List.not_mem_nil
  · intro h
    rw [← h]
    exact isProper_ofList _

structure ByFile (ds : List Diagnostic) (gs : Groups) : Prop where
  files : gs.files = firstSeen ds
  single : gs.files.Nodup
  groups : ∀ g ∈ gs, g.2 = ofFile g.1 ds ∧ g.2 ≠ []
  once : gs.toList.Perm ds

theorem byFile_ofList (ds : List Diagnostic) : ByFile ds (ofList ds) where
  files := files_ofList ds
  single := (isProper_ofList ds).single
  groups _ := eq_ofFile_of_mem
  once := toList_ofList_perm ds

/-- Grouping keeps every order that it can keep, and grouping the diagnostics of a page again changes
nothing. -/
theorem ofList_stable (ds : List Diagnostic) :
    ByFile ds (ofList ds) ∧
      ∀ size index b, Batch.page? ds size index = .ok b → ofList b.diagnostics = b.groups := by
  refine ⟨byFile_ofList ds, fun size index b h => ?_⟩
  obtain ⟨k, i, -, -, rfl⟩ := Batch.of_page?_eq_ok h
  exact isProper_iff.1 (isProper_ofList _)

end Mender.Groups

namespace Mender.Paged

open Mender.Batch

/-- The findings of the first file come together on a page of three, and are grouped as before. -/
theorem regrouped : page? findings 3 0 = .ok (page findings 3 0) ∧
    (page findings 3 0).diagnostics ≠ chunk findings 3 0 ∧
    Groups.ofList (page findings 3 0).diagnostics = (page findings 3 0).groups := by
  have three : Number.toNat? 3 = some 3 := by decide +kernel
  have first : Number.toNat? 0 = some 0 := by decide +kernel
  have ok := page?_eq_ok three (by decide) first findings
  exact ⟨ok, by decide +kernel, (Groups.ofList_stable findings).2 3 0 _ ok⟩

end Mender.Paged
