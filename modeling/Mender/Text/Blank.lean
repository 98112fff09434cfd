/-! The blank characters, and trimming them off either end of a text. What is left by `trim` starts
and ends with a character that is not blank, and no other character is lost. -/

namespace Mender.Text

/-- White space of every kind: the spaces of Unicode, tabs, the line breaks and the byte order mark. -/
def isBlank (c : Char) : Bool :=
  let n := c.toNat
  (9 ≤ n && n ≤ 13) || n == 0x20 || n == 0xA0 || n == 0x1680 || (0x2000 ≤ n && n ≤ 0x200A) ||
    n == 0x2028 || n == 0x2029 || n == 0x202F || n == 0x205F || n == 0x3000 || n == 0xFEFF

/-- The four characters that end a line. All of them are blank. -/
def isLineEnd (c : Char) : Bool :=
  c == '\n' || c == '\r' || c == '\u2028' || c == '\u2029'

def dropEndWhile (p : Char → Bool) (s : List Char) : List Char :=
  (s.reverse.dropWhile p).reverse

theorem dropEndWhile_append_takeEnd (p : Char → Bool) (s : List Char) :
    dropEndWhile p s ++ (s.reverse.takeWhile p).reverse = s := by
  rw [dropEndWhile, ← List.reverse_append, List.takeWhile_append_dropWhile, List.reverse_reverse]

def trimStart (s : List Char) : List Char := s.dropWhile isBlank

def trimEnd (s : List Char) : List Char := dropEndWhile isBlank s

def trim (s : List Char) : List Char := trimEnd (trimStart s)

@[simp] theorem trimStart_nil : trimStart [] = [] := rfl

@[simp] theorem trimEnd_nil : trimEnd [] = [] := rfl

theorem trimStart_blank_append {b s : List Char} (h : ∀ c ∈ b, isBlank c = true) :
    trimStart (b ++ s) = trimStart s := by
  induction b with
  | nil => rfl
  | cons c r ih =>
    rw [List.forall_mem_cons] at h
    simp only [trimStart, List.cons_append, List.dropWhile_cons, h.1, if_true] at ih ⊢
    exact ih h.2

theorem trimEnd_append_blank {s b : List Char} (h : ∀ c ∈ b, isBlank c = true) :
    trimEnd (s ++ b) = trimEnd s := by
  have := trimStart_blank_append (b := b.reverse) (s := s.reverse)
    (fun c hc => h c (List.mem_reverse.1 hc))
  simp only [trimStart] at this
  simp only [trimEnd, dropEndWhile, List.reverse_append, this]

end Mender.Text
