import Mender.Proofs.Markup.Content
import Mender.Proofs.Number.Numeral
import Mender.Prompt.Request

/-! How a prompt shows the files of a request. A file that was read is shown in rows, each line behind
its number; every row reads back as the line that it shows, so what is shown of a file is the file. A
prompt can be written unless the content of some file is no text. -/

namespace Mender.Prompt

open Mender.Text

/-- Without the spaces that set it to the right, a label is its number. -/
theorem dropWhile_label_append (width n : Nat) (s : List Char) :
    (label width n ++ s).dropWhile (· == ' ') = Nat.toDigits 10 n ++ s := by
  obtain ⟨d, ds, hd⟩ := List.exists_cons_of_ne_nil (Nat.toDigits_ne_nil (n := n) (b := 10))
  have notSpace : ¬ (d == ' ') = true := by
    intro hspace
    have := Number.isDigit_of_mem_toDigits (n := n) d (by rw [hd]; exact List.mem_cons_self)
    rw [eq_of_beq hspace] at this
    cases this
  rw [label, List.append_assoc, List.dropWhile_append_of_pos (by simp), hd, List.cons_append]
  exact List.dropWhile_cons_of_neg notSpace

structure Row where
  number : Nat
  text : List Char
  deriving DecidableEq

namespace Row

/-- Reads a row: a number that may be set to the right, a bar, and the text. -/
def read? (l : List Char) : Option Row := do
  let numbered := l.dropWhile (· == ' ')
  let number ← readDigits? 10 (numbered.takeWhile Char.isDigit)
  let text ← dropMark? " | ".toList (numbered.dropWhile Char.isDigit)
  return ⟨number, text⟩

theorem read?_label (width n : Nat) (text : List Char) :
    read? (label width n ++ " | ".toList ++ text) = some ⟨n, text⟩ := by
  have digits := Number.isDigit_of_mem_toDigits (n := n)
  have bar : (' ' : Char).isDigit = false := rfl
  rw [read?, List.append_assoc, dropWhile_label_append, List.takeWhile_append_of_pos digits,
    List.dropWhile_append_of_pos digits]
  change (do
    let number ← readDigits? 10 (Nat.toDigits 10 n ++ [])
    let text ← dropMark? " | ".toList (" | ".toList ++ text)
    some (⟨number, text⟩ : Row)) = _
  rw [List.append_nil, readDigits?_of_forall_isDigit Nat.toDigits_ne_nil digits,
    Nat.ofDigitChars_ten_toDigits, dropMark?_append]
  rfl

end Row

def rows? (shown : List Char) : Option (List Row) := (lines shown).mapM Row.read?

def rowsOf (content : List Char) : List Row := (lines content).mapIdx fun i l => ⟨i + 1, l⟩

theorem newline_not_mem_label (width n : Nat) : '\n' ∉ label width n := by
  intro h
  rcases List.mem_append.1 h with h | h
  · cases List.eq_of_mem_replicate h
  · cases Number.isDigit_of_mem_toDigits _ h

theorem lines_numberLines (content : List Char) : lines (numberLines content) = numberedLines content := by
  refine lines_unlines ?_ fun row hrow => ?_
  · simpa [numberedLines] using lines_ne_nil content
  · obtain ⟨i, hi, rfl⟩ := List.mem_mapIdx.1 hrow
    have inline := not_mem_of_mem_lines (List.getElem_mem hi)
    simp [newline_not_mem_label, inline]

/-- What is shown of a text reads back as its lines with their numbers. -/
theorem rows?_numberLines (content : List Char) : rows? (numberLines content) = some (rowsOf content) := by
  rw [rows?, lines_numberLines, numberedLines, rowsOf]
  generalize (Nat.toDigits 10 (lines content).length).length = width
  rw [List.mapIdx_eq_zipIdx_map, List.mapIdx_eq_zipIdx_map, List.mapM_map]
  simp only [Function.comp_def, Row.read?_label]
  exact List.mapM_pure

theorem map_number_rowsOf (content : List Char) :
    (rowsOf content).map Row.number = List.range' 1 (lines content).length := by
  refine List.ext_getElem (by simp [rowsOf]) fun i _ _ => ?_
  simp [rowsOf, Nat.add_comm]

theorem map_text_rowsOf (content : List Char) : (rowsOf content).map Row.text = lines content := by
  refine List.ext_getElem (by simp [rowsOf]) fun i _ _ => ?_
  simp [rowsOf]

section Legible

variable {r : Request}

/-- A file that nothing is known of has no content, unless its name is one that every object knows. -/
theorem content?_of_lookup_eq_none {file : String} (h : r.contents.lookup file = none) :
    content? r file = if file ∈ inheritedNames then .error .contentNotText else .ok none := by
  rw [content?, h]

theorem content?_of_lookup_eq_some {file content : String} (h : r.contents.lookup file = some content) :
    content? r file = .ok (some content) := by
  rw [content?, h]

theorem eq_contentNotText {file : String} {f : Failure} (h : content? r file = .error f) :
    f = .contentNotText := by
  cases hlookup : r.contents.lookup file with
  | some content =>
    rw [content?_of_lookup_eq_some hlookup] at h
    cases h
  | none =>
    rw [content?_of_lookup_eq_none hlookup] at h
    split at h
    · exact (Except.error.inj h).symm
    · cases h

/-- No file that the request has no content for is named like something that every object knows. -/
def Legible (r : Request) : Prop :=
  ∀ file ∈ r.errors.files, r.contents.lookup file = none → file ∉ inheritedNames

theorem not_legible_iff : ¬ Legible r ↔
    ∃ file ∈ r.errors.files, r.contents.lookup file = none ∧ file ∈ inheritedNames := by
  simp [Legible]

/-- What is found for a file of a legible request is what the request has for it. -/
theorem content?_of_legible (h : Legible r) {file : String} (hfile : file ∈ r.errors.files) :
    content? r file = .ok (r.contents.lookup file) := by
  cases hlookup : r.contents.lookup file with
  | some content => exact content?_of_lookup_eq_some hlookup
  | none => rw [content?_of_lookup_eq_none hlookup, if_neg (h file hfile hlookup)]

theorem legible_iff_content? :
    Legible r ↔ ∀ file ∈ r.errors.files, ∃ shown?, content? r file = .ok shown? := by
  constructor
  · exact fun h file hfile => ⟨_, content?_of_legible h hfile⟩
  · intro h file hfile hlookup inherited
    obtain ⟨shown?, hshown⟩ := h file hfile
    rw [content?_of_lookup_eq_none hlookup, if_pos inherited] at hshown
    cases hshown

def shownFiles (r : Request) : List (String × Option String) :=
  r.errors.files.map fun file => (file, r.contents.lookup file)

theorem mapM_fileElement_eq_ok {files : List String}
    (h : ∀ file ∈ files, content? r file = .ok (r.contents.lookup file)) :
    (files.mapM fun file => do return fileElement file (← content? r file)) =
      (.ok (files.map fun file => fileElement file (r.contents.lookup file)) : Except Failure _) := by
  induction files with
  | nil => rfl
  | cons file files ih =>
    rw [List.forall_mem_cons] at h
    rw [List.mapM_cons, ih h.2, List.map_cons, h.1]
    rfl

theorem mapM_fileElement_eq_error {files : List String}
    (h : ¬ ∀ file ∈ files, ∃ shown?, content? r file = .ok shown?) :
    (files.mapM fun file => do return fileElement file (← content? r file)) =
      (.error .contentNotText : Except Failure _) := by
  induction files with
  | nil => simp at h
  | cons file files ih =>
    rw [List.mapM_cons]
    cases hcontent : content? r file with
    | error f =>
      rw [eq_contentNotText hcontent]
      rfl
    | ok shown? =>
      rw [List.forall_mem_cons] at h
      rw [ih fun rest => h ⟨⟨shown?, hcontent⟩, rest⟩]
      rfl

theorem user_of_legible (h : Legible r) :
    user r = .ok (String.ofList (around r ((shownFiles r).map fun p => fileElement p.1 p.2))) := by
  rw [user, mapM_fileElement_eq_ok fun _ => content?_of_legible h, shownFiles, List.map_map]
  rfl

theorem user_of_not_legible (h : ¬ Legible r) : user r = .error .contentNotText := by
  rw [legible_iff_content?] at h
  rw [user, mapM_fileElement_eq_error h]
  rfl

end Legible

end Mender.Prompt
