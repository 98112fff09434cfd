import Mender.Markup.Entity
import Mender.Text.Split

/-! Elements of markup and the text they hold. An element is found by its first opening tag and the
first closing tag after that. What it holds is either a CDATA section, taken as it is written, or
plain text, which loses the line breaks around it and has its entities read. -/

namespace Mender.Markup

open Mender.Text

def openingTag (name : List Char) : List Char := '<' :: name ++ ['>']

def closingTag (name : List Char) : List Char := '<' :: '/' :: name ++ ['>']

/-- What the first element of this name holds, and what follows it. -/
def element? (name s : List Char) : Option (List Char × List Char) :=
  (cut? (openingTag name) s).bind fun (_, inner) => cut? (closingTag name) inner

theorem length_lt_of_element? {name s inner after : List Char}
    (h : element? name s = some (inner, after)) : after.length < s.length := by
  obtain ⟨⟨_, r⟩, hr, ha⟩ := Option.bind_eq_some_iff.1 h
  exact Nat.lt_trans (length_lt_of_cut? (by simp [closingTag]) ha)
    (length_lt_of_cut? (by simp [openingTag]) hr)

/-- What the elements of this name hold, from left to right; none of them overlap. -/
def elements (name s : List Char) : List (List Char) :=
  match _h : element? name s with
  | some (inner, after) => inner :: elements name after
  | none => []
termination_by s.length
decreasing_by exact length_lt_of_element? _h

/-- The content of a CDATA section that stands alone between blanks. -/
def cdata? (raw : List Char) : Option (List Char) :=
  (dropMark? "<![CDATA[".toList (trimStart raw)).bind fun s => dropEndMark? "]]>".toList (trimEnd s)

/-- The text without a first line that holds nothing but spaces and tabs. -/
def dropFirstBreak (s : List Char) : List Char :=
  match s.dropWhile fun c => c == ' ' || c == '\t' with
  | '\n' :: r => r
  | '\r' :: '\n' :: r => r
  | _ => s

/-- The text without the first line break after its last character that is not blank, and without
what follows that break. -/
def dropLastBreak (s : List Char) : List Char :=
  let body := trimEnd s
  match cut? ['\n'] (s.drop body.length) with
  | some (before, _) => body ++ (if before.getLast? = some '\r' then before.dropLast else before)
  | none => s

def readText (raw : List Char) : List Char :=
  match cdata? raw with
  | some content => content
  | none => unescape (dropLastBreak (dropFirstBreak raw))

end Mender.Markup
