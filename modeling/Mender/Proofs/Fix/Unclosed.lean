import Mender.Proofs.Fix.Escaped

/-! Blocks that are left open. A block reaches to the next tag that closes one, past the tags that open
others, so a run of blocks of which only the last is closed is read as one; and each part of what is read
comes from the first block of the run that has it. So the blocks that are incomplete are not passed over:
what they have is put together with what those after them have. -/

namespace Mender.Answer

open Mender.Text Mender.Markup

/-- What is left of a block that was written with entities. If the tag that closes it is missing, there may
be parts missing as well. -/
structure Remnant where
  block : Escaped
  keeps : Part → Bool
  closed : Bool
  whole : closed = true → ∀ p, keeps p = true

namespace Remnant

variable (b : Remnant)

def fix : Fix := b.block.fix

def children : List Child := b.block.children.filter (b.keeps ·.part)

/-- What stands between the tag that opens the block and the next tag. -/
def content : List Char :=
  b.block.lead.chars ++ b.children.flatMap (Child.text b.fix) ++ if b.closed then [] else b.block.gap.chars

def opened : List Char := openingTag "fix".toList ++ b.content

def text : List Char :=
  b.opened ++ if b.closed then closingTag "fix".toList ++ b.block.gap.chars else []

end Remnant

/-- Blocks from the first one that is not closed before them up to the one that is. After the last one that is
closed there is no run. -/
def runs : List Remnant → List (List Remnant)
  | [] => []
  | b :: bs => if b.closed then [b] :: runs bs else (runs bs).modifyHead (b :: ·)

/-- Answers that consist of such blocks, or have a `fixes` element that does. -/
def answerOf (frame? : Option Frame) (bs : List Remnant) : List Char :=
  match frame? with
  | none => bs.flatMap Remnant.text
  | some fr =>
    fr.before ++ (written "fixes".toList (fr.lead.chars ++ bs.flatMap Remnant.text) ++ fr.after)

section Runs

theorem runs_of_open {bs : List Remnant} (h : ∀ b ∈ bs, b.closed = false) : runs bs = [] := by
  induction bs with
  | nil => rfl
  | cons b bs ih =>
    rw [List.forall_mem_cons] at h
    rw [runs, h.1, ih h.2]
    rfl

theorem runs_append {opens : List Remnant} {last : Remnant} (h : ∀ b ∈ opens, b.closed = false)
    (closed : last.closed = true) (rest : List Remnant) :
    runs (opens ++ last :: rest) = (opens ++ [last]) :: runs rest := by
  induction opens with
  | nil => rw [List.nil_append, runs, if_pos closed, List.nil_append]
  | cons b opens ih =>
    rw [List.forall_mem_cons] at h
    rw [List.cons_append, runs, h.1, ih h.2]
    rfl

/-- Blocks are runs, each of blocks that are open and one that is closed, and then blocks that are open. -/
theorem runs_induction {motive : List Remnant → Prop}
    (ends : ∀ bs, (∀ b ∈ bs, b.closed = false) → motive bs)
    (run : ∀ opens last rest, (∀ b ∈ opens, b.closed = false) → last.closed = true → motive rest →
      motive (opens ++ last :: rest)) (bs : List Remnant) : motive bs := by
  -- for blocks behind any that are open
  suffices h : ∀ opens : List Remnant, (∀ b ∈ opens, b.closed = false) → motive (opens ++ bs) from
    h [] fun b hb => absurd hb List.not_mem_nil
  induction bs with
  | nil => exact fun opens h => ends _ (by simpa using h)
  | cons b bs ih =>
    intro opens h
    cases hb : b.closed with
    | true => exact run opens b bs h hb (ih [] fun b hb => absurd hb List.not_mem_nil)
    | false =>
      have longer : ∀ b' ∈ opens ++ [b], b'.closed = false := by
        simpa [or_imp, forall_and, hb] using h
      simpa using ih (opens ++ [b]) longer

end Runs

section Text

variable {m : List Char}

theorem Remnant.skips_content (b : Remnant) (hm : IsName m)
    (h : ∀ c ∈ b.children, m ≠ c.part.name ∧ m ≠ '/' :: c.part.name) :
    Skips (openingTag m) b.content := by
  refine (Child.skips_texts b.fix hm h b.block.lead).append ?_
  split
  · exact skips_nil
  · exact skips_blanks _

theorem Remnant.skips_opened (b : Remnant) (hm : IsName m) (hfix : m ≠ "fix".toList)
    (h : ∀ c ∈ b.children, m ≠ c.part.name ∧ m ≠ '/' :: c.part.name) :
    Skips (openingTag m) b.opened :=
  (skips_openingTag hm (by decide) hfix).append (b.skips_content hm h)

def inside : List Remnant → List Char
  | [] => []
  | b :: r => b.content ++ r.flatMap Remnant.opened

theorem flatMap_opened {r : List Remnant} (h : r ≠ []) :
    r.flatMap Remnant.opened = openingTag "fix".toList ++ inside r := by
  cases r with
  | nil => exact absurd rfl h
  | cons b r => rw [List.flatMap_cons, Remnant.opened, inside, List.append_assoc]

theorem flatMap_text_of_open {bs : List Remnant} (h : ∀ b ∈ bs, b.closed = false) :
    bs.flatMap Remnant.text = bs.flatMap Remnant.opened := by
  induction bs with
  | nil => rfl
  | cons b bs ih =>
    rw [List.forall_mem_cons] at h
    rw [List.flatMap_cons, List.flatMap_cons, ih h.2, Remnant.text, h.1, if_neg (by decide), List.append_nil]

theorem flatMap_text_run {opens : List Remnant} {last : Remnant} (h : ∀ b ∈ opens, b.closed = false)
    (closed : last.closed = true) (rest : List Remnant) :
    (opens ++ last :: rest).flatMap Remnant.text =
      written "fix".toList (inside (opens ++ [last])) ++
        (last.block.gap.chars ++ rest.flatMap Remnant.text) := by
  have row := flatMap_opened (r := opens ++ [last]) (by simp)
  rw [List.flatMap_append, List.flatMap_singleton] at row
  rw [written, List.flatMap_append, List.flatMap_cons, flatMap_text_of_open h, Remnant.text, if_pos closed,
    ← List.append_assoc, ← List.append_assoc, ← List.append_assoc, row]
  simp only [List.append_assoc]

theorem skips_flatMap_opened (hm : IsName m) (hfix : m ≠ "fix".toList)
    (h : ∀ p : Part, m ≠ p.name ∧ m ≠ '/' :: p.name) (bs : List Remnant) :
    Skips (openingTag m) (bs.flatMap Remnant.opened) :=
  Skips.flatMap fun b _ => b.skips_opened hm hfix fun c _ => h c.part

theorem unclosed_flatMap_opened (bs : List Remnant) :
    ¬ closingTag "fix".toList <:+: bs.flatMap Remnant.opened :=
  not_infix_of_skips (skips_flatMap_opened (m := '/' :: "fix".toList) (by decide) (by decide)
    (fun p => by cases p <;> decide) bs)

/-- A tag of another name than those of a block and its parts is not in any of them. -/
theorem skips_flatMap_text (hm : IsName m) (hfix : m ≠ "fix".toList) (hfix' : m ≠ '/' :: "fix".toList)
    (h : ∀ p : Part, m ≠ p.name ∧ m ≠ '/' :: p.name) (bs : List Remnant) :
    Skips (openingTag m) (bs.flatMap Remnant.text) := by
  refine Skips.flatMap fun b _ => (b.skips_opened hm hfix fun c _ => h c.part).append ?_
  split
  · exact (skips_openingTag hm (by decide) hfix').append (skips_blanks _)
  · exact skips_nil

/-- Each run is found as one element, and what is left open at the end is not found. -/
theorem elements_flatMap_text (bs : List Remnant) :
    elements "fix".toList (bs.flatMap Remnant.text) = (runs bs).map inside := by
  induction bs using runs_induction with
  | ends bs h =>
    rw [flatMap_text_of_open h, runs_of_open h]
    exact elements_of_none (element?_eq_none_of_unclosed (unclosed_flatMap_opened bs))
  | run opens last rest h closed ih =>
    have unclosed : ¬ closingTag "fix".toList <:+: inside (opens ++ [last]) := fun inner => by
      refine unclosed_flatMap_opened (opens ++ [last]) (inner.trans ?_)
      rw [flatMap_opened (by simp)]
      exact (List.suffix_append _ _).isInfix
    rw [flatMap_text_run h closed, elements_written_append (by decide) unclosed, ih, runs_append h closed,
      List.map_cons]

theorem blocks_answerOf (frame? : Option Frame) (bs : List Remnant) :
    blocks (answerOf frame? bs) = (runs bs).map fun r => readBlock (inside r) := by
  have scope_eq : elements "fix".toList (scope (answerOf frame? bs)) = (runs bs).map inside := by
    cases frame? with
    | none =>
      have unopened : ¬ openingTag "fixes".toList <:+: bs.flatMap Remnant.text :=
        not_infix_of_skips (skips_flatMap_text (by decide) (by decide) (by decide)
          (fun p => by cases p <;> decide) bs)
      rw [answerOf, scope, element?_eq_none unopened, Option.map_none, Option.getD_none,
        elements_flatMap_text]
    | some fr =>
      have unclosed : ¬ closingTag "fixes".toList <:+: fr.lead.chars ++ bs.flatMap Remnant.text :=
        not_infix_of_skips ((skips_blanks fr.lead).append (skips_flatMap_text (m := '/' :: "fixes".toList)
          (by decide) (by decide) (by decide) (fun p => by cases p <;> decide) bs))
      rw [answerOf, scope, element?_written (by decide) fr.unopened unclosed, Option.map_some,
        Option.getD_some, elements_append_of_skips (skips_blanks fr.lead), elements_flatMap_text]
  rw [blocks, scope_eq, List.map_map]
  rfl

end Text

section Parts

/-- A part that a block has is found in it, whatever stands behind the block. -/
theorem Remnant.exists_element?_opened {b : Remnant} {p : Part} (h : b.keeps p = true) (post : List Char) :
    ∃ indent rest, element? p.name (b.opened ++ post) = some (p.escaped b.fix indent, rest) := by
  obtain ⟨c, hc, rfl⟩ := b.block.exists_child p
  have kept : c ∈ b.children := List.mem_filter.2 ⟨hc, h⟩
  have once : (b.children.map Child.part).Nodup := b.block.nodup_parts.sublist (List.filter_sublist.map _)
  obtain ⟨rest, found⟩ := Child.exists_element?_texts b.fix once kept b.block.lead
    ((if b.closed then [] else b.block.gap.chars) ++ post)
  rw [← List.append_assoc] at found
  have tag : Skips (openingTag c.part.name) (openingTag "fix".toList) :=
    skips_openingTag c.part.isName (by decide) c.part.name_ne_fix
  refine ⟨c.indent, rest, ?_⟩
  rw [Remnant.opened, List.append_assoc, element?_append_of_skips tag]
  exact found

/-- A part that a block does not have is looked for behind it. -/
theorem Remnant.skips_opened_of_not_keeps {b : Remnant} {p : Part} (h : ¬ b.keeps p = true) :
    Skips (openingTag p.name) b.opened := by
  refine b.skips_opened p.isName p.name_ne_fix fun c hc => ⟨fun same => ?_, p.name_ne_slash c.part⟩
  rw [Part.name_injective same] at h
  exact h (List.mem_filter.1 hc).2

/-- A part is read from the first block of a run that has it. -/
theorem field?_flatMap_opened (p : Part) {name : String} (hname : name.toList = p.name)
    (r : List Remnant) :
    field? name (r.flatMap Remnant.opened) = (r.find? (·.keeps p)).map (p.read ·.fix) := by
  induction r with
  | nil =>
    have none : ¬ openingTag name.toList <:+: [] := by simp [openingTag]
    rw [List.flatMap_nil, field?, element?_eq_none none]
    rfl
  | cons b r ih =>
    rw [List.flatMap_cons]
    by_cases hb : b.keeps p = true
    · obtain ⟨indent, rest, found⟩ := Remnant.exists_element?_opened hb (r.flatMap Remnant.opened)
      rw [← hname] at found
      rw [field?_of_element? found, Remnant.fix, b.block.readText_escaped, List.find?_cons_of_pos (by exact hb)]
      rfl
    · have skips := Remnant.skips_opened_of_not_keeps hb
      rw [← hname] at skips
      rw [field?, element?_append_of_skips skips, ← field?, ih, List.find?_cons_of_neg (by exact hb)]

theorem field?_inside (p : Part) {name : String} (hname : name.toList = p.name) (r : List Remnant) :
    field? name (inside r) = (r.find? (·.keeps p)).map (p.read ·.fix) := by
  cases r with
  | nil => exact field?_flatMap_opened p hname []
  | cons b r =>
    have tag : Skips (openingTag name.toList) (openingTag "fix".toList) :=
      skips_openingTag (hname ▸ p.isName) (by decide) (hname ▸ p.name_ne_fix)
    rw [← field?_flatMap_opened p hname, flatMap_opened (List.cons_ne_nil b r), field?, field?,
      element?_append_of_skips tag]

/-- The fix that a run is read as: each part is that of the first block of the run which has it. -/
def assembled (r : List Remnant) : Option Fix := do
  let file ← r.find? (·.keeps .file)
  let line ← r.find? (·.keeps .line)
  let original ← r.find? (·.keeps .original)
  let fixed ← r.find? (·.keeps .fixed)
  return ⟨file.fix.file, line.fix.line, original.fix.before, fixed.fix.fixed⟩

theorem readBlock_inside {r : List Remnant} {f : Fix} (h : assembled r = some f) :
    readBlock (inside r) = .ok f := by
  simp only [assembled, Option.bind_eq_bind, Option.bind_eq_some_iff, Option.pure_def, Option.some.injEq] at h
  obtain ⟨file, hfile, line, hline, original, horiginal, fixed, hfixed, rfl⟩ := h
  refine readBlock_of_fields ⟨file.block.placed.named, file.block.placed.trimmed, line.block.placed.line⟩
    ?_ ?_ ?_ ?_
  · rw [field?_inside .file rfl, hfile]; rfl
  · rw [field?_inside .line rfl, hline]; rfl
  · rw [field?_inside .original rfl, horiginal]; rfl
  · rw [field?_inside .fixed rfl, hfixed]; rfl

def Part.Agrees (f g : Fix) : Part → Prop
  | .file => f.file = g.file
  | .line => f.line = g.line
  | .original => f.before = g.before
  | .fixed => f.fixed = g.fixed

theorem eq_iff_forall_agrees {f g : Fix} : f = g ↔ ∀ p : Part, p.Agrees f g := by
  constructor
  · rintro rfl p
    cases p <;> rfl
  · intro h
    obtain ⟨file, line, before, fixed⟩ := f
    obtain ⟨rfl⟩ : file = g.file := h .file
    obtain ⟨rfl⟩ : line = g.line := h .line
    obtain ⟨rfl⟩ : before = g.before := h .original
    obtain ⟨rfl⟩ : fixed = g.fixed := h .fixed
    rfl

theorem Part.Agrees.trans_iff {p : Part} {f g h : Fix} (same : p.Agrees f g) : p.Agrees f h ↔ p.Agrees g h := by
  cases p <;> exact ⟨same.symm.trans, same.trans⟩

/-- Every part of a run is in some block, as the last one has them all. -/
theorem exists_find? (opens : List Remnant) {last : Remnant} (closed : last.closed = true) (p : Part) :
    ∃ b, (opens ++ [last]).find? (·.keeps p) = some b := by
  rw [← Option.isSome_iff_exists, List.find?_isSome]
  exact ⟨last, by simp, last.whole closed p⟩

theorem exists_assembled (opens : List Remnant) {last : Remnant} (closed : last.closed = true) :
    ∃ f, assembled (opens ++ [last]) = some f ∧
      ∀ p, ∀ b ∈ (opens ++ [last]).find? (·.keeps p), p.Agrees f b.fix := by
  obtain ⟨file, hfile⟩ := exists_find? opens closed .file
  obtain ⟨line, hline⟩ := exists_find? opens closed .line
  obtain ⟨original, horiginal⟩ := exists_find? opens closed .original
  obtain ⟨fixed, hfixed⟩ := exists_find? opens closed .fixed
  refine ⟨⟨file.fix.file, line.fix.line, original.fix.before, fixed.fix.fixed⟩, ?_, fun p b hb => ?_⟩
  · rw [assembled, hfile, hline, horiginal, hfixed]
    rfl
  · cases p with
    | file => cases hfile.symm.trans hb; rfl
    | line => cases hline.symm.trans hb; rfl
    | original => cases horiginal.symm.trans hb; rfl
    | fixed => cases hfixed.symm.trans hb; rfl

/-- A run is read as the fix of its last block if no part differs that comes from another one. -/
theorem assembled_eq_iff {opens : List Remnant} {last : Remnant} (closed : last.closed = true) :
    assembled (opens ++ [last]) = some last.fix ↔
      ∀ p, ∀ b ∈ (opens ++ [last]).find? (·.keeps p), p.Agrees b.fix last.fix := by
  obtain ⟨f, hf, agrees⟩ := exists_assembled opens closed
  rw [hf, Option.some.injEq, eq_iff_forall_agrees]
  refine forall_congr' fun p => ⟨fun h b hb => (agrees p b hb).trans_iff.1 h, fun h => ?_⟩
  obtain ⟨b, hb⟩ := exists_find? opens closed p
  exact (agrees p b hb).trans_iff.2 (h b hb)

end Parts

section Answer

theorem exists_of_mem_runs {bs r : List Remnant} (h : r ∈ runs bs) :
    ∃ opens last, r = opens ++ [last] ∧ last.closed = true := by
  induction bs using runs_induction with
  | ends bs none =>
    rw [runs_of_open none] at h
    cases h
  | run opens last rest none closed ih =>
    rw [runs_append none closed, List.mem_cons] at h
    exact h.elim (fun h => ⟨opens, last, h, closed⟩) ih

theorem filter_closed_of_open {bs : List Remnant} (h : ∀ b ∈ bs, b.closed = false) :
    bs.filter (·.closed) = [] :=
  List.filter_eq_nil_iff.2 fun b hb => by simp [h b hb]

/-- There is one run for each block that is closed, and it ends with that block. -/
theorem map_getLast?_runs (bs : List Remnant) :
    (runs bs).map List.getLast? = (bs.filter (·.closed)).map some := by
  induction bs using runs_induction with
  | ends bs none =>
    rw [runs_of_open none, filter_closed_of_open none]
    rfl
  | run opens last rest none closed ih =>
    rw [runs_append none closed, List.map_cons, ih, List.filter_append, filter_closed_of_open none,
      List.nil_append, List.filter_cons_of_pos (by exact closed), List.map_cons, List.getLast?_concat]

variable (frame? : Option Frame) (bs : List Remnant)

theorem exists_blocks_answerOf : ∃ fs : List Fix, blocks (answerOf frame? bs) = fs.map .ok ∧
    fs.map some = (runs bs).map assembled := by
  have each : ∀ r ∈ runs bs, ∃ f, assembled r = some f := by
    intro r hr
    obtain ⟨opens, last, rfl, closed⟩ := exists_of_mem_runs hr
    obtain ⟨f, hf, -⟩ := exists_assembled opens closed
    exact ⟨f, hf⟩
  rw [blocks_answerOf]
  generalize runs bs = rs at each
  induction rs with
  | nil => exact ⟨[], rfl, rfl⟩
  | cons r rs ih =>
    rw [List.forall_mem_cons] at each
    obtain ⟨f, hf⟩ := each.1
    obtain ⟨fs, hblocks, hfs⟩ := ih each.2
    exact ⟨f :: fs, by rw [List.map_cons, hblocks, readBlock_inside hf, List.map_cons],
      by rw [List.map_cons, List.map_cons, hfs, hf]⟩

end Answer

theorem findIdx_lt_findIdx_iff {α : Type} (p q : α → Bool) (as : List α) :
    as.findIdx p < as.findIdx q ↔ ∃ a ∈ as.takeWhile (!q ·), p a = true := by
  induction as with
  | nil => simp
  | cons a as ih =>
    cases hq : q a with
    | true => simp [List.findIdx_cons, hq]
    | false =>
      cases hp : p a with
      | true => simp [List.findIdx_cons, hp, hq]
      | false => simp [List.findIdx_cons, hp, hq, ih]

/-- A fix that a run is read as, its file or its line coming from an earlier block of the run than its new
text. -/
def Spliced (bs : List Remnant) (f : Fix) : Prop :=
  ∃ r ∈ runs bs, assembled r = some f ∧
    (r.findIdx (·.keeps .file) < r.findIdx (·.keeps .fixed) ∨
      r.findIdx (·.keeps .line) < r.findIdx (·.keeps .fixed))

structure ReadByRuns (bs : List Remnant) (answer : List Char) : Prop where
  /-- Each run is read as a fix, and there are no others. -/
  assembled : (fixes answer).map some = (runs bs).map assembled
  skipped : skipped answer = []
  /-- None is spliced exactly if no block has a file or a line where there is no new text yet. -/
  spliced_iff : (∀ f ∈ fixes answer, ¬ Spliced bs f) ↔
    ∀ r ∈ runs bs, ∀ b ∈ r.takeWhile (!·.keeps .fixed), b.keeps .file = false ∧ b.keeps .line = false
  /-- Those that are left open are passed over exactly if what is read of them does not differ from what the
  block has that closes the run. -/
  passed_iff : fixes answer = (bs.filter (·.closed)).map Remnant.fix ↔
    ∀ r ∈ runs bs, ∀ last ∈ r.getLast?, ∀ p, ∀ b ∈ r.find? (·.keeps p), p.Agrees b.fix last.fix

theorem not_spliced_iff {bs : List Remnant} {fs : List Fix} (h : fs.map some = (runs bs).map assembled) :
    (∀ f ∈ fs, ¬ Spliced bs f) ↔
      ∀ r ∈ runs bs, ∀ b ∈ r.takeWhile (!·.keeps .fixed), b.keeps .file = false ∧ b.keeps .line = false := by
  constructor
  · intro apart r hr b hb
    obtain ⟨opens, last, rfl, closed⟩ := exists_of_mem_runs hr
    obtain ⟨f, hf, -⟩ := exists_assembled opens closed
    have mem : some f ∈ fs.map some := by
      rw [h, ← hf]
      exact List.mem_map_of_mem hr
    have order := fun lt => apart f (by simpa using mem) ⟨_, hr, hf, lt⟩
    refine ⟨eq_false_of_ne_true fun hfile => order (.inl ?_), eq_false_of_ne_true fun hline => order (.inr ?_)⟩
    · exact (findIdx_lt_findIdx_iff _ _ _).2 ⟨b, hb, hfile⟩
    · exact (findIdx_lt_findIdx_iff _ _ _).2 ⟨b, hb, hline⟩
  · rintro none f - ⟨r, hr, -, lt | lt⟩
    · obtain ⟨b, hb, hfile⟩ := (findIdx_lt_findIdx_iff _ _ _).1 lt
      cases hfile.symm.trans (none r hr b hb).1
    · obtain ⟨b, hb, hline⟩ := (findIdx_lt_findIdx_iff _ _ _).1 lt
      cases hline.symm.trans (none r hr b hb).2

theorem passed_iff {bs : List Remnant} {fs : List Fix} (h : fs.map some = (runs bs).map assembled) :
    fs = (bs.filter (·.closed)).map Remnant.fix ↔
      ∀ r ∈ runs bs, ∀ last ∈ r.getLast?, ∀ p, ∀ b ∈ r.find? (·.keeps p), p.Agrees b.fix last.fix := by
  have lasts : ((bs.filter (·.closed)).map Remnant.fix).map some =
      (runs bs).map fun r => r.getLast?.map Remnant.fix := by
    have := congrArg (List.map (Option.map Remnant.fix)) (map_getLast?_runs bs)
    simpa [Function.comp_def] using this.symm
  rw [← List.map_inj_right (f := some) (fun _ _ h => Option.some.inj h), h, lasts, List.map_inj_left]
  refine forall₂_congr fun r hr => ?_
  obtain ⟨opens, last, rfl, closed⟩ := exists_of_mem_runs hr
  simp only [List.getLast?_concat, Option.map_some, assembled_eq_iff closed, Option.mem_def,
    Option.some.injEq, forall_eq']

/-- Whichever blocks are left open, and whatever is missing from them, a run is read as one fix. -/
theorem readByRuns (frame? : Option Frame) (bs : List Remnant) : ReadByRuns bs (answerOf frame? bs) := by
  obtain ⟨fs, hblocks, hfs⟩ := exists_blocks_answerOf frame? bs
  obtain ⟨rfl, skipped⟩ := blocks_eq_iff.1 hblocks
  exact ⟨hfs, skipped, not_spliced_iff hfs, passed_iff hfs⟩

namespace RunOn

/-! A block that breaks off before its new text, and one behind it. Its file and its line are given the new
text of the other one. -/

def child (p : Part) : Child := ⟨p, .empty, .empty⟩

def escaped (f : Fix) (placed : f.Placed) (settable : Settable f.before.toList ∧ Settable f.fixed.toList) :
    Escaped where
  fix := f
  placed := placed
  settable := settable
  lead := .empty
  children := [child .file, child .line, child .original, child .fixed]
  complete := .refl _
  gap := .empty

def brokenOff : Remnant where
  block := escaped ⟨"a.php", 1, "one", "first"⟩ ⟨by decide, by decide, 0, by decide +kernel⟩
    ⟨.of_getLast? rfl rfl, .of_getLast? rfl rfl⟩
  keeps p := p ≠ .fixed
  closed := false
  whole := nofun

def next : Remnant where
  block := escaped ⟨"b.php", 2, "two", "second"⟩ ⟨by decide, by decide, 1, by decide +kernel⟩
    ⟨.of_getLast? rfl rfl, .of_getLast? rfl rfl⟩
  keeps _ := true
  closed := true
  whole _ _ := rfl

def frame : Frame := ⟨[], .empty, [], Frame.unopened_nil⟩

def answer : List Char := answerOf (some frame) [brokenOff, next]

/-- Fixes need not be of one block each. -/
theorem exists_spliced :
    String.ofList answer = "<fixes><fix><file>a.php</file><line>1</line><original>\none\n</original>" ++
      "<fix><file>b.php</file><line>2</line><original>\ntwo\n</original><fixed>\nsecond\n</fixed></fix>" ++
      "</fixes>" ∧
    fixes answer = [⟨"a.php", 1, "one", "second"⟩] ∧
    ∃ f ∈ fixes answer, Spliced [brokenOff, next] f := by
  have run : assembled [brokenOff, next] = some ⟨"a.php", 1, "one", "second"⟩ := rfl
  have read : fixes answer = [⟨"a.php", 1, "one", "second"⟩] := by
    have block : blocks answer = [readBlock (inside [brokenOff, next])] := blocks_answerOf _ _
    rw [fixes, block, readBlock_inside run]
    rfl
  refine ⟨by decide +kernel, read, ⟨"a.php", 1, "one", "second"⟩, by simp [read], ?_⟩
  exact ⟨[brokenOff, next], List.mem_cons_self, run, .inl (by decide)⟩

end RunOn

end Mender.Answer
