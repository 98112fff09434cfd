import Mender.Text.Blank

/-! The five characters that markup keeps for itself, written as entities. Reading what was written
gives the text back. -/

namespace Mender.Markup

def entityName? (c : Char) : Option (List Char) :=
  if c = '&' then some "amp".toList
  else if c = '<' then some "lt".toList
  else if c = '>' then some "gt".toList
  else if c = '"' then some "quot".toList
  else if c = '\x27' then some "apos".toList
  else none

def escapeChar (c : Char) : List Char :=
  match entityName? c with
  | some name => '&' :: name ++ [';']
  | none => [c]

def escape (s : List Char) : List Char := s.flatMap escapeChar

/-- Reads each of the five entities as its character, from left to right, and all else as it is. -/
def unescape : List Char → List Char
  | '&' :: 'a' :: 'm' :: 'p' :: ';' :: s => '&' :: unescape s
  | '&' :: 'l' :: 't' :: ';' :: s => '<' :: unescape s
  | '&' :: 'g' :: 't' :: ';' :: s => '>' :: unescape s
  | '&' :: 'q' :: 'u' :: 'o' :: 't' :: ';' :: s => '"' :: unescape s
  | '&' :: 'a' :: 'p' :: 'o' :: 's' :: ';' :: s => '\x27' :: unescape s
  | c :: s => c :: unescape s
  | [] => []

theorem escape_cons (c : Char) (s : List Char) : escape (c :: s) = escapeChar c ++ escape s := rfl

theorem unescape_cons {c : Char} (h : c ≠ '&') (s : List Char) :
    unescape (c :: s) = c :: unescape s := by
  rw [unescape] <;> intros <;> simp_all

theorem unescape_escapeChar_append (c : Char) (s : List Char) :
    unescape (escapeChar c ++ s) = c :: unescape s := by
  by_cases h₁ : c = '&'
  · subst c; simp [escapeChar, entityName?, unescape]
  by_cases h₂ : c = '<'
  · subst c; simp [escapeChar, entityName?, unescape]
  by_cases h₃ : c = '>'
  · subst c; simp [escapeChar, entityName?, unescape]
  by_cases h₄ : c = '"'
  · subst c; simp [escapeChar, entityName?, unescape]
  by_cases h₅ : c = '\x27'
  · subst c; simp [escapeChar, entityName?, unescape]
  have hc : escapeChar c = [c] := by simp [escapeChar, entityName?, h₁, h₂, h₃, h₄, h₅]
  rw [hc, List.singleton_append, unescape_cons h₁]

theorem unescape_escape (s : List Char) : unescape (escape s) = s := by
  induction s with
  | nil => rfl
  | cons c s ih => rw [escape_cons, unescape_escapeChar_append, ih]

end Mender.Markup
