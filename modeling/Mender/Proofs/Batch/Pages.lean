import Mathlib.Data.List.Perm.Basic
import Mender.Batch.Basic

/-! The pages of a list hold every diagnostic of it, each as often as the list does. A page groups its
chunk by file, so inside a page the order may be another one. -/

namespace Mender

namespace Groups

theorem toList_add_perm (d : Diagnostic) (gs : Groups) : (add d gs).toList.Perm (gs.toList ++ [d]) := by
  induction gs with
  | nil => exact .refl _
  | cons g gs ih =>
    rw [add]
    split
    · -- the group that grows is followed by the others
      simp only [toList, List.flatMap_cons, List.append_assoc]
      exact List.perm_append_comm.append_left _
    · simp only [toList, List.flatMap_cons, List.append_assoc] at ih ⊢
      exact ih.append_left _

theorem toList_ofList_perm (ds : List Diagnostic) : (ofList ds).toList.Perm ds := by
  have from_groups (gs : Groups) :
      (ds.foldl (fun gs d => add d gs) gs).toList.Perm (gs.toList ++ ds) := by
    induction ds generalizing gs with
    | nil => simp
    | cons d ds ih =>
      have step := (ih (add d gs)).trans ((toList_add_perm d gs).append_right ds)
      simpa using step
  exact from_groups []

end Groups

namespace Batch

def chunk (ds : List Diagnostic) (size i : Nat) : List Diagnostic := (ds.drop (i * size)).take size

theorem diagnostics_page_perm (ds : List Diagnostic) (size i : Nat) :
    (page ds size i).diagnostics.Perm (chunk ds size i) :=
  Groups.toList_ofList_perm _

theorem flatMap_chunk_range (ds : List Diagnostic) (size n : Nat) :
    (List.range n).flatMap (chunk ds size) = ds.take (n * size) := by
  induction n with
  | zero => simp
  | succ n ih =>
    rw [List.range_succ, List.flatMap_append, ih, List.flatMap_singleton, chunk, Nat.succ_mul,
      List.take_add]

theorem length_pages (ds : List Diagnostic) (size : Nat) :
    (pages ds size).length = pagesFor ds.length size := by
  simp [pages]

theorem pages_nil {size : Nat} (h : 0 < size) : pages [] size = [] := by
  have none : pagesFor 0 size = 0 := Nat.div_eq_of_lt (by omega)
  rw [pages, List.length_nil, none, List.range_zero, List.map_nil]

/-- The first pages hold the beginning of the list, and nothing else. -/
theorem flatMap_take_pages_perm (ds : List Diagnostic) (size n : Nat) :
    (((pages ds size).take n).flatMap diagnostics).Perm
      (ds.take (min n (pagesFor ds.length size) * size)) := by
  rw [← flatMap_chunk_range, pages, ← List.map_take, List.take_range, List.flatMap_map]
  exact List.Perm.flatMap_left _ fun i _ => diagnostics_page_perm ds size i

/-- A page is one of those that it takes if what comes before it is not all. -/
theorem lt_pagesFor_iff {size : Nat} (h : 0 < size) (total i : Nat) :
    i < pagesFor total size ↔ i * size < total := by
  rw [pagesFor, Nat.lt_iff_add_one_le, Nat.le_div_iff_mul_le h, Nat.succ_mul]
  omega

theorem pagesFor_le_iff {size : Nat} (h : 0 < size) (total n : Nat) :
    pagesFor total size ≤ n ↔ total ≤ n * size := by
  rw [← Nat.not_lt, lt_pagesFor_iff h, Nat.not_lt]

theorem flatMap_pages_perm (ds : List Diagnostic) {size : Nat} (h : 0 < size) :
    ((pages ds size).flatMap diagnostics).Perm ds := by
  have all := flatMap_take_pages_perm ds size (pagesFor ds.length size)
  rwa [← length_pages, List.take_length, length_pages, Nat.min_self,
    List.take_of_length_le ((pagesFor_le_iff h _ _).1 (Nat.le_refl _))] at all

end Batch
end Mender
