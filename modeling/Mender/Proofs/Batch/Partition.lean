import Mathlib.Data.List.GetD
import Mathlib.Order.Bounds.Basic
import Mathlib.Tactic.Ring
import Mender.Proofs.Batch.Grouping
import Mender.Proofs.Batch.Pages
import Mender.Proofs.Number.Quotient

/-! The pages of a list are a partition of it: as few as can hold it, each of them the next chunk of the
list, grouped by file, and each but the last full. A page past the last one holds nothing. -/

namespace Mender.Batch

variable {ds : List Diagnostic} {k i : Nat} {size index : Number}

theorem length_chunk (ds : List Diagnostic) (k i : Nat) :
    (chunk ds k i).length = min k (ds.length - i * k) := by
  rw [chunk, List.length_take, List.length_drop]

def pastEnd (ds : List Diagnostic) (i : Nat) : Batch := ⟨⟨.ofNat i, .ofNat ds.length, 0, false⟩, []⟩

theorem page_info (positive : 0 < k) (ds : List Diagnostic) (i : Nat) :
    (page ds k i).info =
      ⟨.ofNat i, .ofNat ds.length, .ofNat (min k (ds.length - i * k)),
        decide (i + 1 < pagesFor ds.length k)⟩ := by
  rw [← length_chunk]
  simp only [lt_pagesFor_iff positive]
  rfl

theorem page_eq_pastEnd (positive : 0 < k) (h : pagesFor ds.length k ≤ i) :
    page ds k i = pastEnd ds i := by
  have past : ds.length ≤ i * k := (pagesFor_le_iff positive _ _).1 h
  have none : (ds.drop (i * k)).take k = [] := by rw [List.drop_eq_nil_of_le past, List.take_nil]
  have last : ¬ (i + 1) * k < ds.length := by
    rw [Nat.succ_mul]
    omega
  simp only [page, pastEnd, none, last]
  rfl

theorem getElem?_pages (ds : List Diagnostic) (k i : Nat) :
    (pages ds k)[i]? = if i < pagesFor ds.length k then some (page ds k i) else none := by
  split
  case isTrue there =>
    rw [pages, List.getElem?_map, List.getElem?_range there]
    rfl
  case isFalse past =>
    refine List.getElem?_eq_none ?_
    rw [length_pages]
    exact Nat.not_lt.1 past

theorem getD_pages (positive : 0 < k) (ds : List Diagnostic) (i : Nat) :
    (pages ds k).getD i (pastEnd ds i) = page ds k i := by
  rw [List.getD_eq_getElem?_getD, getElem?_pages]
  split
  case isTrue => rfl
  case isFalse past => exact (page_eq_pastEnd positive (Nat.not_lt.1 past)).symm

theorem diagnostics_page (ds : List Diagnostic) (k i : Nat) :
    (page ds k i).diagnostics =
      (Groups.firstSeen (chunk ds k i)).flatMap fun file => Groups.ofFile file (chunk ds k i) :=
  Groups.toList_ofList _

theorem pageSize?_eq_ok (hk : size.toNat? = some k) (positive : 0 < k) : pageSize? size = .ok k := by
  obtain ⟨n, rfl⟩ := Nat.exists_eq_add_of_le' positive
  rw [pageSize?, hk]

theorem pageCount_ofNat {n : Nat} (small : n < 2 ^ 53) (hk : size.toNat? = some k) (positive : 0 < k) :
    pageCount (.ofNat n) size = .ok (.ofNat (pagesFor n k)) := by
  rw [pageCount, pageSize?_eq_ok hk positive]
  refine congrArg Except.ok (Number.ceil_ofNat_div small hk positive ?_ fun j hj => ?_)
  · exact (pagesFor_le_iff positive _ _).1 (Nat.le_refl _)
  · exact (lt_pagesFor_iff positive _ _).1 hj

theorem pages?_eq_ok (hk : size.toNat? = some k) (positive : 0 < k) (ds : List Diagnostic) :
    pages? ds size = .ok (pages ds k) := by
  rw [pages?, pageSize?_eq_ok hk positive]
  rfl

theorem page?_eq_ok (hk : size.toNat? = some k) (positive : 0 < k) (hi : index.toNat? = some i)
    (ds : List Diagnostic) : page? ds size index = .ok (page ds k i) := by
  rw [page?, pageSize?_eq_ok hk positive, pageIndex?, hi]
  rfl

theorem of_page?_eq_ok {b : Batch} (h : page? ds size index = .ok b) :
    ∃ k i, size.toNat? = some k ∧ index.toNat? = some i ∧ b = page ds k i := by
  unfold page? pageSize? pageIndex? at h
  split at h
  case h_1 n hn =>
    split at h
    case h_1 i hi => exact ⟨n + 1, i, hn, hi, (Except.ok.inj h).symm⟩
    case h_2 => cases h
  case h_2 => cases h

/-- These batches are the pages of a list, `k` diagnostics to a page. -/
structure Partition (ds : List Diagnostic) (k : Nat) (bs : List Batch) : Prop where
  /-- Fewer pages could not hold the list. -/
  fewest : IsLeast {n | ds.length ≤ n * k} bs.length
  info : ∀ i (b : Batch), bs[i]? = some b →
    b.info = ⟨.ofNat i, .ofNat ds.length, .ofNat (min k (ds.length - i * k)), decide (i + 1 < bs.length)⟩
  filled : ∀ i < bs.length, 1 ≤ min k (ds.length - i * k)
  /-- Each page is a chunk with its files in the order in which they are first seen. -/
  grouped : ∀ i (b : Batch), bs[i]? = some b →
    b.diagnostics =
      (Groups.firstSeen (chunk ds k i)).flatMap fun file => Groups.ofFile file (chunk ds k i)
  consecutive : (List.range bs.length).flatMap (chunk ds k) = ds
  once : (bs.flatMap diagnostics).Perm ds

theorem eq_page_of_getElem?_pages {b : Batch} (h : (pages ds k)[i]? = some b) : b = page ds k i := by
  rw [getElem?_pages] at h
  split at h
  case isTrue => exact (Option.some.inj h).symm
  case isFalse => cases h

theorem partition_pages (positive : 0 < k) (ds : List Diagnostic) : Partition ds k (pages ds k) where
  fewest := by
    rw [length_pages]
    exact ⟨(pagesFor_le_iff positive _ _).1 (Nat.le_refl _), fun n => (pagesFor_le_iff positive _ n).2⟩
  info i b h := by
    rw [eq_page_of_getElem?_pages h, length_pages]
    exact page_info positive ds i
  filled i hi := by
    rw [length_pages, lt_pagesFor_iff positive] at hi
    omega
  grouped i b h := by
    rw [eq_page_of_getElem?_pages h]
    exact diagnostics_page ds k i
  consecutive := by
    rw [length_pages, flatMap_chunk_range]
    exact List.take_of_length_le ((pagesFor_le_iff positive _ _).1 (Nat.le_refl _))
  once := flatMap_pages_perm ds positive

/-- Pages of `k` diagnostics each partition a list, and every page that is asked for by its number is the
page with that number, or empty. The pages are counted by a rounded quotient, which is exact for any list
that can be held. -/
theorem pages?_partition (hk : size.toNat? = some k) (positive : 0 < k) (ds : List Diagnostic) :
    ∃ bs, pages? ds size = .ok bs ∧ Partition ds k bs ∧
      (ds.length < 2 ^ 53 → pageCount (.ofNat ds.length) size = .ok (.ofNat bs.length)) ∧
      ∀ index i, index.toNat? = some i → page? ds size index = .ok (bs.getD i (pastEnd ds i)) := by
  refine ⟨pages ds k, pages?_eq_ok hk positive ds, partition_pages positive ds, fun small => ?_, ?_⟩
  · rw [length_pages]
    exact pageCount_ofNat small hk positive
  · intro index i hi
    rw [getD_pages positive, page?_eq_ok hk positive hi]

end Mender.Batch

namespace Mender.Paged

/-! Five findings in two files, two to a page. Both files are in the first page and one in each of the
others, the last of which is not full. -/

open Mender.Batch

def finding (file : String) (line : Number) : Diagnostic := ⟨"found", file, line, .other, none, none⟩

def findings : List Diagnostic :=
  [finding "b.php" 1, finding "a.php" 1, finding "b.php" 1, finding "b.php" 2, finding "a.php" 3]

theorem three_pages : Number.toNat? 2 = some 2 ∧
    ∃ bs, pages? findings 2 = .ok bs ∧ bs.length = 3 ∧ (bs.flatMap diagnostics).Perm findings ∧
      pageCount (.ofNat 5) 2 = .ok (.ofNat 3) ∧ page? findings 2 3 = .ok (pastEnd findings 3) := by
  have two : Number.toNat? 2 = some 2 := by decide +kernel
  obtain ⟨bs, ok, partition, count, byNumber⟩ := pages?_partition two (by decide) findings
  have three : bs.length = 3 := partition.fewest.unique ⟨by decide, fun n hn => ?_⟩
  · refine ⟨two, bs, ok, three, partition.once, three ▸ count (by decide), ?_⟩
    rw [byNumber 3 3 (by decide +kernel), List.getD_eq_default _ _ (Nat.le_of_eq three)]
  · change 5 ≤ n * 2 at hn
    omega

end Mender.Paged
