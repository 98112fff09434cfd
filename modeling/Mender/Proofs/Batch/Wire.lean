import Mathlib.Data.List.Forall2
import Mender.Batch.Wire
import Mender.Proofs.Batch.Partition
import Mender.Proofs.Json.Members

/-! What of a page is on the wire. The files of the page are the names of an object's members, and each of
them has its diagnostics, one for one and in order. A file named `__proto__` is the one exception: no
member can have that name, so its diagnostics are lost, while the size of the batch goes on counting
them. -/

namespace Mender

/-- A value says what a diagnostic says: its code and its suggestion are there if they are not empty. -/
structure Diagnostic.OnWire (d : Diagnostic) (value : Json) : Prop where
  message : value.member? "message" = some (.text d.message)
  file : value.member? "file" = some (.text d.file)
  line : value.member? "line" = some (.number d.line)
  category : value.member? "error_type" = some (.text d.category.name)
  code : value.member? "error_code" = (d.code.filter (· != "")).map .text
  suggestion : value.member? "suggestion" = (d.suggestion.filter (· != "")).map .text

theorem Json.filter_ofNonEmpty (text? : Option String) :
    (some (ofNonEmpty text?)).filter (fun value => !value.isAbsent) =
      (text?.filter (· != "")).map .text := by
  unfold ofNonEmpty ofOption
  cases text?.filter (· != "") <;> rfl

theorem Diagnostic.onWire_toWire (d : Diagnostic) : d.OnWire d.toWire where
  message := rfl
  file := rfl
  line := rfl
  category := rfl
  code := Json.filter_ofNonEmpty d.code
  suggestion := Json.filter_ofNonEmpty d.suggestion

namespace Batch

/-- The member of a batch on the wire that holds the diagnostics. -/
def errors (wire : Json) : Json := (wire.member? "errors_by_file").getD .absent

def size? (wire : Json) : Option Json := (wire.member? "batch").bind (Json.member? "batch_size")

def listed (wire : Json) : Nat :=
  ((errors wire).names.map fun file => (((errors wire).member? file).getD .absent).items.length).sum

/-- A batch on the wire lists these diagnostics, under the files that they have, and no others. -/
structure Lists (wire : Json) (ds : List Diagnostic) : Prop where
  names : ∀ file, file ∈ (errors wire).names ↔ ∃ d ∈ ds, d.file = file
  single : (errors wire).names.Nodup
  /-- The diagnostics of a file are there once each and in order. -/
  groups : ∀ file ∈ (errors wire).names, ∃ values, (errors wire).member? file = some (.list values) ∧
    List.Forall₂ Diagnostic.OnWire (Groups.ofFile file ds) values

/-- A batch on the wire lists these diagnostics, and its size is their number. -/
structure Carries (wire : Json) (ds : List Diagnostic) : Prop extends Lists wire ds where
  size : size? wire = some (.number (.ofNat (listed wire)))

variable {wire : Json} {ds : List Diagnostic}

theorem Lists.listed_eq (h : Lists wire ds) : listed wire = ds.length := by
  have files : (errors wire).names.Perm (Groups.firstSeen ds) :=
    (List.perm_ext_iff_of_nodup h.single (Groups.nodup_firstSeen ds)).2 fun file => by
      rw [h.names, Groups.mem_firstSeen]
  have lengths : (errors wire).names.map (fun file => (((errors wire).member? file).getD .absent).items.length) =
      (errors wire).names.map fun file => (Groups.ofFile file ds).length := by
    refine List.map_congr_left fun file hfile => ?_
    obtain ⟨values, there, each⟩ := h.groups file hfile
    rw [there, each.length_eq]
    rfl
  have whole := (Groups.toList_ofList_perm ds).length_eq
  rw [Groups.toList_ofList, List.length_flatMap] at whole
  rw [listed, lengths, (files.map _).sum_nat, whole]

/-- The diagnostics whose files can be the name of a member. -/
def nameable (ds : List Diagnostic) : List Diagnostic := ds.filter (·.file != reservedName)

theorem wireGroups_ofList (info : BatchInfo) (ds : List Diagnostic) :
    (wireGroups ⟨info, Groups.ofList ds⟩).Perm
      ((Groups.firstSeen (nameable ds)).map fun file =>
        (file, (Groups.ofFile file (nameable ds)).map Diagnostic.toWire)) := by
  refine (Json.perm_inOrder _).trans (.of_eq ?_)
  rw [Groups.filter_ofList (· != reservedName), Groups.ofList_eq, List.map_map]
  rfl

theorem errors_toWire (b : Batch) :
    errors b.toWire = .object (b.wireGroups.map fun g => (g.1, .list g.2)) := rfl

theorem names_errors (b : Batch) : (errors b.toWire).names = b.wireGroups.map (·.1) := by
  rw [errors_toWire, Json.names, List.filter_eq_self.2, List.map_map]
  · rfl
  · intro member hmember
    obtain ⟨g, -, rfl⟩ := List.mem_map.1 hmember
    rfl

theorem member?_errors {b : Batch} (single : (errors b.toWire).names.Nodup) {file : String}
    {values : List Json} (h : (file, values) ∈ b.wireGroups) :
    (errors b.toWire).member? file = some (.list values) := by
  have there : (file, Json.list values) ∈ b.wireGroups.map fun g => (g.1, Json.list g.2) :=
    List.mem_map_of_mem h
  rw [names_errors] at single
  rw [errors_toWire, Json.member?, Json.lookup_eq_some_of_mem ?_ there]
  · rfl
  · rw [List.map_map]
    exact single

theorem lists_toWire (info : BatchInfo) (ds : List Diagnostic) :
    Lists (toWire ⟨info, Groups.ofList ds⟩) (nameable ds) := by
  have groups := wireGroups_ofList info ds
  have names : (errors (toWire ⟨info, Groups.ofList ds⟩)).names.Perm (Groups.firstSeen (nameable ds)) := by
    rw [names_errors]
    refine (groups.map _).trans (.of_eq ?_)
    rw [List.map_map]
    exact List.map_id _
  have single := names.nodup_iff.2 (Groups.nodup_firstSeen _)
  refine ⟨fun file => ?_, single, fun file hfile => ?_⟩
  · rw [names.mem_iff, Groups.mem_firstSeen]
  · have there := groups.mem_iff.2 (List.mem_map_of_mem (names.mem_iff.1 hfile))
    refine ⟨_, member?_errors single there, List.forall₂_map_right_iff.2 ?_⟩
    exact List.forall₂_same.2 fun d _ => d.onWire_toWire

/-- On the wire, a page has all its diagnostics but those of a file named `__proto__`, and its size counts
these too. -/
theorem toWire_carries_iff {size index : Number} {b : Batch} (h : page? ds size index = .ok b) :
    ∃ k i, size.toNat? = some k ∧ index.toNat? = some i ∧
      Lists b.toWire (nameable (chunk ds k i)) ∧
      size? b.toWire = some (.number (.ofNat (chunk ds k i).length)) ∧
      (Carries b.toWire (chunk ds k i) ↔ ∀ d ∈ chunk ds k i, d.file ≠ reservedName) := by
  obtain ⟨k, i, hk, hi, rfl⟩ := of_page?_eq_ok h
  have lists : Lists (page ds k i).toWire (nameable (chunk ds k i)) := lists_toWire _ _
  refine ⟨k, i, hk, hi, lists, rfl, fun carries d hd same => ?_, fun named => ?_⟩
  · have here := (carries.names reservedName).2 ⟨d, hd, same⟩
    obtain ⟨d', hd', same'⟩ := (lists.names reservedName).1 here
    have other := (List.mem_filter.1 hd').2
    rw [same'] at other
    cases other
  · have all : nameable (chunk ds k i) = chunk ds k i :=
      List.filter_eq_self.2 fun d hd => bne_iff_ne.2 (named d hd)
    rw [all] at lists
    refine ⟨lists, ?_⟩
    rw [lists.listed_eq]
    rfl

end Batch

namespace Parcel

open Batch

def finding (file : String) (line : Number) : Diagnostic := ⟨"found", file, line, .other, none, some ""⟩

/-- Findings whose files are put into another order on the wire. -/
def numbered : List Diagnostic := [finding "b.php" 1, finding "10" 1, finding "9" 1, finding "10" 2]

theorem numbered_carried :
    page? numbered 4 0 = .ok (page numbered 4 0) ∧ Carries (page numbered 4 0).toWire numbered := by
  have ok : page? numbered 4 0 = .ok (page numbered 4 0) :=
    page?_eq_ok (by decide +kernel) (by decide) (by decide +kernel) numbered
  obtain ⟨k, i, hk, hi, -, -, carries⟩ := toWire_carries_iff ok
  obtain rfl : k = 4 := Option.some.inj (hk.symm.trans (by decide +kernel))
  obtain rfl : i = 0 := Option.some.inj (hi.symm.trans (by decide +kernel))
  exact ⟨ok, carries.2 (by decide)⟩

/-- Findings one of which is in a file that no member can be named like. -/
def reserved : List Diagnostic := [finding "__proto__" 1, finding "a.php" 2]

theorem reserved_lost :
    page? reserved 2 0 = .ok (page reserved 2 0) ∧ (errors (page reserved 2 0).toWire).names = ["a.php"] ∧
      ¬ Carries (page reserved 2 0).toWire reserved := by
  have names : (errors (page reserved 2 0).toWire).names = ["a.php"] := by decide +kernel
  refine ⟨page?_eq_ok (by decide +kernel) (by decide) (by decide +kernel) reserved, names, fun carries => ?_⟩
  have here := (carries.names "__proto__").2 ⟨finding "__proto__" 1, List.mem_cons_self, rfl⟩
  rw [names] at here
  exact absurd here (by decide)

end Parcel

end Mender
