import Mathlib.Data.List.Perm.Basic
import Mender.Proofs.Fix.Answer

/-! Answers that are written with entities. Whatever the texts of a fix hold, no tag begins in them once
they are escaped, so every part is found where it stands, in whichever order the parts come. -/

namespace Mender.Answer

open Mender.Text Mender.Markup

inductive Part where
  | file
  | line
  | original
  | fixed
  deriving DecidableEq

namespace Part

def name : Part → List Char
  | .file => "file".toList
  | .line => "line".toList
  | .original => "original".toList
  | .fixed => "fixed".toList

theorem isName (p : Part) : IsName p.name := by cases p <;> decide

theorem name_ne_slash (p q : Part) : p.name ≠ '/' :: q.name := by cases p <;> cases q <;> decide

theorem name_ne_fix (p : Part) : p.name ≠ "fix".toList := by cases p <;> decide

theorem name_injective : Function.Injective name := by
  intro p q h
  cases p <;> cases q <;> first | rfl | exact absurd h (by decide)

/-- What an element for this part of a fix holds. The texts stand on lines of their own. -/
def escaped (f : Fix) (indent : Blanks) : Part → List Char
  | .file => escape f.file.toList
  | .line => f.lineDigits
  | .original => inset f.before.toList indent
  | .fixed => inset f.fixed.toList indent

def read (f : Fix) : Part → List Char
  | .file => f.file.toList
  | .line => f.lineDigits
  | .original => f.before.toList
  | .fixed => f.fixed.toList

theorem escaped_no_angle (f : Fix) (indent : Blanks) (p : Part) : '<' ∉ p.escaped f indent := by
  have inset (s : List Char) : '<' ∉ inset s indent := by
    simp [Markup.inset, not_mem_escape, indent.not_mem (c := '<') rfl]
  cases p with
  | file => exact not_mem_escape _
  | line => exact f.lineDigits_no_angle
  | original => exact inset _
  | fixed => exact inset _

end Part

/-- An element for a part, and the blanks after it. -/
structure Child where
  part : Part
  indent : Blanks
  gap : Blanks

def Child.text (f : Fix) (c : Child) : List Char :=
  written c.part.name (c.part.escaped f c.indent) ++ c.gap.chars

namespace Child

variable (f : Fix) {m : List Char}

theorem skips_text (hm : IsName m) {c : Child} (h : m ≠ c.part.name) (h' : m ≠ '/' :: c.part.name) :
    Skips (openingTag m) (c.text f) :=
  (skips_written hm c.part.isName h h' (skips_of_no_angle (c.part.escaped_no_angle f c.indent))).append
    (skips_blanks c.gap)

variable {children : List Child}

theorem skips_texts (hm : IsName m) (h : ∀ c ∈ children, m ≠ c.part.name ∧ m ≠ '/' :: c.part.name)
    (lead : Blanks) : Skips (openingTag m) (lead.chars ++ children.flatMap (text f)) :=
  (skips_blanks lead).append (Skips.flatMap fun c hc => skips_text f hm (h c hc).1 (h c hc).2)

/-- A part that is written once is found in its element, past the elements of the others. -/
theorem exists_element?_texts (once : (children.map part).Nodup) {c : Child} (hc : c ∈ children)
    (lead : Blanks) (post : List Char) :
    ∃ rest, element? c.part.name (lead.chars ++ children.flatMap (text f) ++ post) =
      some (c.part.escaped f c.indent, rest) := by
  obtain ⟨before, after, rfl⟩ := List.append_of_mem hc
  have others : ∀ c' ∈ before, c.part ≠ c'.part := by
    intro c' hc' same
    rw [List.map_append, List.map_cons, List.nodup_append] at once
    exact once.2.2 _ (List.mem_map_of_mem hc') _ List.mem_cons_self same.symm
  have pre : Skips (openingTag c.part.name) (lead.chars ++ before.flatMap (text f)) :=
    skips_texts f c.part.isName
      (fun c' hc' => ⟨fun h => others c' hc' (Part.name_injective h), c.part.name_ne_slash c'.part⟩) lead
  have inner : Skips (closingTag c.part.name) (c.part.escaped f c.indent) :=
    skips_of_no_angle (c.part.escaped_no_angle f c.indent)
  have split : lead.chars ++ (before ++ c :: after).flatMap (text f) ++ post =
      lead.chars ++ before.flatMap (text f) ++
        (written c.part.name (c.part.escaped f c.indent) ++
          (c.gap.chars ++ (after.flatMap (text f) ++ post))) := by
    rw [List.flatMap_append, List.flatMap_cons, text]
    simp only [List.append_assoc]
  rw [split]
  exact ⟨_, element?_written c.part.isName (not_infix_of_skips pre) (not_infix_of_skips inner) _⟩

end Child

/-- A fix with its parts written in some order. -/
structure Escaped where
  fix : Fix
  placed : fix.Placed
  settable : Settable fix.before.toList ∧ Settable fix.fixed.toList
  lead : Blanks
  children : List Child
  complete : (children.map Child.part).Perm [.file, .line, .original, .fixed]
  gap : Blanks

namespace Escaped

variable (e : Escaped)

def content : List Char := e.lead.chars ++ e.children.flatMap (Child.text e.fix)

def item : Item := ⟨e.content, e.gap⟩

theorem skips_content {m : List Char} (hm : IsName m)
    (h : ∀ p : Part, m ≠ p.name ∧ m ≠ '/' :: p.name) : Skips (openingTag m) e.content :=
  Child.skips_texts e.fix hm (fun c _ => h c.part) e.lead

theorem nodup_parts : (e.children.map Child.part).Nodup := e.complete.nodup_iff.2 (by decide)

theorem exists_child (p : Part) : ∃ c ∈ e.children, c.part = p :=
  List.mem_map.1 (e.complete.mem_iff.2 (by cases p <;> simp))

theorem readText_escaped (indent : Blanks) (p : Part) :
    readText (p.escaped e.fix indent) = p.read e.fix := by
  cases p with
  | file =>
    have starts := head?_escape (head?_of_trim_eq e.placed.trimmed)
    have ends := getLast?_escape (getLast?_of_trim_eq e.placed.trimmed)
    exact (readText_of_ends (not_mem_escape _) starts ends).trans (unescape_escape _)
  | line => exact e.fix.readText_lineDigits
  | original => exact readText_inset e.settable.1 indent
  | fixed => exact readText_inset e.settable.2 indent

theorem field?_content (p : Part) {name : String} (hname : name.toList = p.name) :
    field? name e.content = some (p.read e.fix) := by
  obtain ⟨c, hc, rfl⟩ := e.exists_child p
  obtain ⟨rest, found⟩ := Child.exists_element?_texts e.fix e.nodup_parts hc e.lead []
  rw [← hname, List.append_nil] at found
  exact (field?_of_element? found).trans (congrArg some (e.readText_escaped c.indent c.part))

theorem readBlock_content : readBlock e.content = .ok e.fix :=
  readBlock_of_fields e.placed (e.field?_content .file rfl) (e.field?_content .line rfl)
    (e.field?_content .original rfl) (e.field?_content .fixed rfl)

end Escaped

/-- Fixes that are written with entities are read back, all of them and in their order. -/
theorem fixes_text_escaped (fr : Frame) (es : List Escaped) :
    fixes (fr.text (es.map Escaped.item)) = es.map Escaped.fix := by
  have skips {m : List Char} (hm : IsName m) (h : ∀ p : Part, m ≠ p.name ∧ m ≠ '/' :: p.name) :
      ∀ i ∈ es.map Escaped.item, Skips (openingTag m) i.content := by
    intro i hi
    obtain ⟨e, -, rfl⟩ := List.mem_map.1 hi
    exact e.skips_content hm h
  refine (blocks_eq_iff.1 ?_).1
  rw [fr.blocks_text (skips (by decide) ?_) (skips (by decide) ?_), List.map_map, List.map_map]
  · exact List.map_congr_left fun e _ => e.readBlock_content
  · intro p
    cases p <;> decide
  · intro p
    cases p <;> decide

namespace Thorny

/-! Fixes whose texts are full of tags, entities and the starts of sections, their parts in any order. -/

def indent : Blanks := ⟨"\n  ".toList, by simp [isBlank]⟩

def tags : Escaped where
  fix := ⟨"src/<fix>.php", 3, "echo '</original><fixed>';", "// </fixed></fix>\n<![CDATA[</fixes>"⟩
  placed := ⟨by decide, by decide, 2, by decide +kernel⟩
  settable := ⟨.of_getLast? rfl rfl, .of_getLast? rfl rfl⟩
  lead := indent
  children := [⟨.fixed, indent, indent⟩, ⟨.line, .empty, .empty⟩, ⟨.original, .empty, indent⟩,
    ⟨.file, .empty, indent⟩]
  complete := by decide
  gap := indent

def entities : Escaped where
  fix := ⟨"R&D.php", 12, "", "\n  $a &lt;= $b && $c;"⟩
  placed := ⟨by decide, by decide, 11, by decide +kernel⟩
  settable := ⟨⟨by decide, by simp⟩, .of_getLast? rfl rfl⟩
  lead := .empty
  children := [⟨.line, .empty, .empty⟩, ⟨.file, .empty, indent⟩, ⟨.fixed, .empty, indent⟩,
    ⟨.original, indent, .empty⟩]
  complete := by decide
  gap := .empty

def frame : Frame := ⟨"A <fix> for each:".toList, indent, "<fixes>".toList, by decide⟩

theorem read_exactly :
    String.ofList entities.content = "<line>12</line><file>R&amp;D.php</file>\n  " ++
      "<fixed>\n\n  $a &amp;lt;= $b &amp;&amp; $c;\n</fixed>\n  <original>\n\n\n  </original>" ∧
    fixes (frame.text [tags.item, entities.item]) =
      [⟨"src/<fix>.php", 3, "echo '</original><fixed>';", "// </fixed></fix>\n<![CDATA[</fixes>"⟩,
        ⟨"R&D.php", 12, "", "\n  $a &lt;= $b && $c;"⟩] :=
  ⟨by decide +kernel, fixes_text_escaped frame [tags, entities]⟩

end Thorny

end Mender.Answer
