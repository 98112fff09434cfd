import Mender.Fix.Answer
import Mender.Proofs.Markup.Content
import Mender.Proofs.Number.Numeral

/-! Answers as they are written: `fix` elements with blanks between them, in the first `fixes` element of
a text. If no block holds a closing tag of either, the blocks that are read are the ones that were
written. -/

namespace Mender

open Mender.Text Mender.Markup

namespace Text

theorem head?_of_trim_eq {s : List Char} (h : trim s = s) : ∀ c ∈ s.head?, isBlank c = false := by
  obtain ⟨b, hb, -⟩ := exists_append_trimStart s
  obtain ⟨b', hb', -⟩ := exists_trimEnd_append (trimStart s)
  rw [← trim, h] at hb'
  have hlen := congrArg List.length hb
  rw [hb', List.length_append, List.length_append] at hlen
  obtain rfl : b = [] := List.length_eq_zero_iff.1 (by omega)
  intro c hc
  have := List.head?_dropWhile_not isBlank s
  rw [← trimStart, ← List.nil_append (trimStart s), ← hb, Option.mem_def.1 hc] at this
  exact this

theorem getLast?_of_trim_eq {s : List Char} (h : trim s = s) : ∀ c ∈ s.getLast?, isBlank c = false := by
  rw [← h, trim]
  exact getLast?_trimEnd _

end Text

/-- A fix that names a file, with no blanks around the name, and a line. -/
structure Fix.Placed (f : Fix) : Prop where
  named : f.file.toList ≠ []
  trimmed : trim f.file.toList = f.file.toList
  line : ∃ n, f.line.toNat? = some (n + 1)

def Fix.lineDigits (f : Fix) : List Char := Nat.toDigits 10 (f.line.toNat?.getD 0)

theorem Fix.isDigit_of_mem_lineDigits (f : Fix) : ∀ c ∈ f.lineDigits, c.isDigit = true :=
  Number.isDigit_of_mem_toDigits

theorem Fix.lineDigits_no_angle (f : Fix) : '<' ∉ f.lineDigits := by
  intro h
  have := f.isDigit_of_mem_lineDigits _ h
  cases this

theorem Fix.readText_lineDigits (f : Fix) : readText f.lineDigits = f.lineDigits := by
  have solid (c : Char) (hc : c ∈ f.lineDigits) : isBlank c = false :=
    isBlank_of_isDigit (f.isDigit_of_mem_lineDigits c hc)
  have plain : '&' ∉ f.lineDigits := by
    intro h
    have := f.isDigit_of_mem_lineDigits _ h
    cases this
  rw [readText_of_ends f.lineDigits_no_angle (fun c hc => solid c (List.mem_of_head? hc)) fun c hc =>
    solid c (List.mem_of_getLast? hc), unescape_of_not_mem plain]

namespace Fix.Placed

variable {f : Fix} (h : f.Placed)

include h

theorem read_lineDigits : Number.read f.lineDigits = f.line := by
  obtain ⟨n, hn⟩ := h.line
  rw [Fix.lineDigits, hn]
  exact Number.read_toDigits hn

theorem lineIssues_eq_nil : Answer.lineIssues f.line = [] := by
  obtain ⟨n, hn⟩ := h.line
  obtain ⟨c, hc, hline, hcount⟩ := Number.of_toNat? hn
  have count : c = ((n + 1) * stepsPerOne : Nat) := by rw [hcount, Int.natCast_mul]
  have positive : 0 < (n + 1) * stepsPerOne := Nat.mul_pos n.succ_pos Number.stepsPerOne_pos
  have natAbs : c.natAbs = (n + 1) * stepsPerOne := by rw [count, Int.natAbs_natCast]
  have whole : f.line.isInteger = true := by simp [hline, Number.isInteger, natAbs]
  have above : Number.lt 0 f.line = true := by
    rw [hline, Number.zero_eq, Number.lt, Number.le]
    simp only [Bool.and_eq_true, decide_eq_true_eq, bne_iff_ne, ne_eq, Number.finite.injEq]
    omega
  have number : f.line ≠ .nan := by simp [hline]
  rw [Answer.lineIssues, if_neg number, whole, above]
  rfl

end Fix.Placed

namespace Answer

theorem field?_of_element? {name : String} {block raw post : List Char}
    (h : element? name.toList block = some (raw, post)) : field? name block = some (readText raw) := by
  rw [field?, h]
  rfl

theorem field?_written {name : String} {pre raw : List Char} (hname : IsName name.toList)
    (hpre : ¬ openingTag name.toList <:+: pre) (hraw : ¬ closingTag name.toList <:+: raw)
    (post : List Char) : field? name (pre ++ (written name.toList raw ++ post)) = some (readText raw) :=
  field?_of_element? (element?_written hname hpre hraw post)

theorem readBlock_of_fields {block : List Char} {f : Fix} (placed : f.Placed)
    (file : field? "file" block = some f.file.toList) (line : field? "line" block = some f.lineDigits)
    (before : field? "original" block = some f.before.toList)
    (fixed : field? "fixed" block = some f.fixed.toList) : readBlock block = .ok f := by
  have number : lineOf block = f.line := by
    rw [lineOf, line, Option.map_some, Option.getD_some, placed.read_lineDigits]
  have issues : fileIssues (field? "file" block) ++ lineIssues (lineOf block) ++
      fixedIssues (field? "fixed" block) = [] := by
    rw [number, placed.lineIssues_eq_nil, file, fixed, fileIssues, placed.trimmed, if_neg placed.named]
    rfl
  unfold readBlock
  simp only [issues]
  simp only [number, file, before, fixed, Option.getD_some, placed.trimmed, String.ofList_toList]

/-- A block that is read as a fix has the texts of the fix, or no original text if that is empty. -/
theorem fields_of_readBlock {block : List Char} {f : Fix} (h : readBlock block = .ok f) :
    (field? "original" block).getD [] = f.before.toList ∧
      field? "fixed" block = some f.fixed.toList := by
  unfold readBlock at h
  dsimp only at h
  split at h
  case h_1 none =>
    obtain rfl := Except.ok.inj h
    have fixed : fixedIssues (field? "fixed" block) = [] := (List.append_eq_nil_iff.1 none).2
    cases hfixed : field? "fixed" block with
    | none => rw [hfixed] at fixed; cases fixed
    | some text => simp
  case h_2 => cases h

/-- What stands around the blocks of an answer. -/
structure Frame where
  before : List Char
  lead : Blanks
  after : List Char
  unopened : ¬ openingTag "fixes".toList <:+: before

namespace Frame

theorem unopened_nil : ¬ openingTag "fixes".toList <:+: [] := by decide

variable (fr : Frame) (items : List Item)

def body : List Char := fr.lead.chars ++ Item.writeAll "fix".toList items

def text : List Char := fr.before ++ (written "fixes".toList (fr.body items) ++ fr.after)

/-- The blocks are looked for up to the first tag that closes a `fixes` element. -/
theorem exists_blocks_text : ∃ scope rest,
    cut? (closingTag "fixes".toList)
      (Item.writeAll "fix".toList items ++ (closingTag "fixes".toList ++ fr.after)) = some (scope, rest) ∧
    blocks (fr.text items) = (elements "fix".toList scope).map readBlock := by
  have close : closingTag "fixes".toList <:+:
      Item.writeAll "fix".toList items ++ (closingTag "fixes".toList ++ fr.after) :=
    ⟨_, _, List.append_assoc _ _ _⟩
  obtain ⟨scope, rest, hcut⟩ := exists_cut?_of_infix close
  have opened := cut?_openingTag (by decide) fr.unopened
    (fr.body items ++ (closingTag "fixes".toList ++ fr.after))
  have lead : Skips (closingTag "fixes".toList) fr.lead.chars := skips_blanks fr.lead
  have closed : cut? (closingTag "fixes".toList) (fr.body items ++ (closingTag "fixes".toList ++ fr.after)) =
      some (fr.lead.chars ++ scope, rest) := by
    rw [body, List.append_assoc, lead, hcut, Option.map_some]
  have found : element? "fixes".toList (fr.text items) = some (fr.lead.chars ++ scope, rest) := by
    refine element?_eq_some_iff.2 ⟨fr.before, _, ?_, closed⟩
    rw [text, written, List.append_assoc, List.append_assoc, opened]
  refine ⟨scope, rest, hcut, ?_⟩
  rw [blocks, Answer.scope, found, Option.map_some, Option.getD_some,
    elements_append_of_skips (skips_blanks fr.lead)]

variable {items}

theorem blocks_text (h : ∀ i ∈ items, Skips (closingTag "fixes".toList) i.content)
    (h' : ∀ i ∈ items, Skips (closingTag "fix".toList) i.content) :
    blocks (fr.text items) = items.map fun i => readBlock i.content := by
  have skips : Skips (closingTag "fixes".toList) (Item.writeAll "fix".toList items) :=
    Skips.flatMap fun i hi =>
      (skips_written (by decide) (by decide) (by decide) (by decide) (h i hi)).append (skips_blanks i.gap)
  obtain ⟨scope, rest, hcut, hblocks⟩ := fr.exists_blocks_text items
  rw [closingTag_eq, cut?_openingTag (by decide) (not_infix_of_skips skips)] at hcut
  obtain ⟨rfl, -⟩ := Prod.mk.inj (Option.some.inj hcut)
  rw [hblocks, elements_writeAll (by decide) fun i hi => not_infix_of_skips (h' i hi), List.map_map]
  rfl

end Frame

/-- Every block is read as a fix exactly if these are the fixes of the answer and no block is skipped. -/
theorem blocks_eq_iff {answer : List Char} {fs : List Fix} :
    blocks answer = fs.map .ok ↔ fixes answer = fs ∧ skipped answer = [] := by
  unfold fixes skipped
  generalize blocks answer = results
  induction results generalizing fs with
  | nil => simp [eq_comm]
  | cons result results ih =>
    cases result with
    | error issues =>
      cases fs <;> simp
    | ok f =>
      cases fs with
      | nil => simp [Except.toOption]
      | cons f' fs => simp [Except.toOption, ih, and_assoc]

end Answer
end Mender
