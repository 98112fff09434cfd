/-! UTF-8. Reading never fails: each longest run of bytes that starts a character but cannot finish
it, and each byte that starts none, reads as the replacement character. Reading what was written
gives the text back. -/

namespace Mender.Text

/-- A byte of the form `10xxxxxx`, holding six bits. -/
def tailByte (n : Nat) : UInt8 := UInt8.ofNat (0x80 + n % 64)

def encodeChar (c : Char) : List UInt8 :=
  let n := c.toNat
  if n < 0x80 then [UInt8.ofNat n]
  else if n < 0x800 then [UInt8.ofNat (0xC0 + n / 64), tailByte n]
  else if n < 0x10000 then [UInt8.ofNat (0xE0 + n / 4096), tailByte (n / 64), tailByte n]
  else [UInt8.ofNat (0xF0 + n / 262144), tailByte (n / 4096), tailByte (n / 64), tailByte n]

def encode (s : List Char) : List UInt8 := s.flatMap encodeChar

@[simp] theorem encode_nil : encode [] = [] := rfl

theorem encode_cons (c : Char) (s : List Char) : encode (c :: s) = encodeChar c ++ encode s := rfl

theorem encode_append (s t : List Char) : encode (s ++ t) = encode s ++ encode t :=
  List.flatMap_append

/-- A character that has been started: how many bytes it still needs, what the next of them may be,
and the bits read so far. -/
structure Started where
  needed : Nat
  low : Nat
  high : Nat
  bits : Nat

def replacement : Char := '\uFFFD'

/-- What a byte that follows a finished character is: a character of its own, or the start of one.
The narrower bounds after `E0`, `ED`, `F0` and `F4` keep out overlong forms, surrogates and numbers
past the last character. -/
def firstByte (b : UInt8) : Char ⊕ Started :=
  let n := b.toNat
  if n < 0x80 then .inl (Char.ofNat n)
  else if 0xC2 ≤ n ∧ n < 0xE0 then .inr ⟨1, 0x80, 0xBF, n - 0xC0⟩
  else if n = 0xE0 then .inr ⟨2, 0xA0, 0xBF, 0⟩
  else if n = 0xED then .inr ⟨2, 0x80, 0x9F, 0xD⟩
  else if 0xE0 < n ∧ n < 0xF0 then .inr ⟨2, 0x80, 0xBF, n - 0xE0⟩
  else if n = 0xF0 then .inr ⟨3, 0x90, 0xBF, 0⟩
  else if n = 0xF4 then .inr ⟨3, 0x80, 0x8F, 4⟩
  else if 0xF0 < n ∧ n < 0xF4 then .inr ⟨3, 0x80, 0xBF, n - 0xF0⟩
  else .inl replacement

/-- What a byte inside a started character makes of it; `none` if it cannot stand there. -/
def Started.next? (p : Started) (b : UInt8) : Option (Char ⊕ Started) :=
  if p.low ≤ b.toNat ∧ b.toNat ≤ p.high then
    let bits := p.bits * 64 + b.toNat % 64
    some (if p.needed ≤ 1 then .inl (Char.ofNat bits) else .inr ⟨p.needed - 1, 0x80, 0xBF, bits⟩)
  else none

def decodeFrom : Option Started → List UInt8 → List Char
  | none, [] => []
  | some _, [] => [replacement]
  | none, b :: r =>
    match firstByte b with
    | .inl c => c :: decodeFrom none r
    | .inr p => decodeFrom (some p) r
  | some p, b :: r =>
    match p.next? b with
    | some (.inl c) => c :: decodeFrom none r
    | some (.inr q) => decodeFrom (some q) r
    | none =>
      match firstByte b with
      | .inl c => replacement :: c :: decodeFrom none r
      | .inr q => replacement :: decodeFrom (some q) r

def decode (bytes : List UInt8) : List Char := decodeFrom none bytes

/-- The text that the bytes spell, if they spell one without replacement. -/
def decode? (bytes : List UInt8) : Option (List Char) :=
  let s := decode bytes
  if encode s = bytes then some s else none

/-- The numbers of characters leave out the surrogates. -/
theorem toNat_bounds (c : Char) : c.toNat < 0xD800 ∨ 0xDFFF < c.toNat ∧ c.toNat < 0x110000 := by
  have h := c.valid
  simp only [UInt32.isValidChar, Nat.isValidChar] at h
  show c.val.toNat < _ ∨ _ < c.val.toNat ∧ c.val.toNat < _
  omega

theorem toNat_ofNat_byte {n : Nat} (h : n < 256) : (UInt8.ofNat n).toNat = n := by
  simp only [UInt8.toNat_ofNat']
  omega

theorem toNat_tailByte (n : Nat) : (tailByte n).toNat = 0x80 + n % 64 :=
  toNat_ofNat_byte (by omega)

theorem decodeFrom_tail {p : Started} {n : Nat} (h : p.low ≤ 0x80 + n % 64 ∧ 0x80 + n % 64 ≤ p.high)
    (r : List UInt8) :
    decodeFrom (some p) (tailByte n :: r) =
      if p.needed ≤ 1 then Char.ofNat (p.bits * 64 + n % 64) :: decodeFrom none r
      else decodeFrom (some ⟨p.needed - 1, 0x80, 0xBF, p.bits * 64 + n % 64⟩) r := by
  have hm : (0x80 + n % 64) % 64 = n % 64 := by omega
  rw [decodeFrom, Started.next?, toNat_tailByte, if_pos h, hm]
  by_cases h1 : p.needed ≤ 1 <;> simp [h1]

theorem decodeFrom_first (b : UInt8) (r : List UInt8) :
    decodeFrom none (b :: r) =
      match firstByte b with
      | .inl c => c :: decodeFrom none r
      | .inr p => decodeFrom (some p) r := by rw [decodeFrom]

theorem decodeFrom_encodeChar_append (c : Char) (r : List UInt8) :
    decodeFrom none (encodeChar c ++ r) = c :: decodeFrom none r := by
  have hv := toNat_bounds c
  have hc : Char.ofNat c.toNat = c := Char.ofNat_toNat c
  generalize hn : c.toNat = n at hv hc
  rw [encodeChar, hn]
  by_cases h1 : n < 0x80
  · rw [if_pos h1, List.singleton_append, decodeFrom_first, firstByte,
      toNat_ofNat_byte (by omega), if_pos h1, hc]
  by_cases h2 : n < 0x800
  · rw [if_neg h1, if_pos h2, List.cons_append, decodeFrom_first, firstByte,
      toNat_ofNat_byte (by omega), if_neg (by omega), if_pos (by omega)]
    simp only [List.singleton_append]
    rw [decodeFrom_tail (by simp only; omega), if_pos (Nat.le_refl 1),
      show (0xC0 + n / 64 - 0xC0) * 64 + n % 64 = n by omega, hc]
  by_cases h3 : n < 0x10000
  · rw [if_neg h1, if_neg h2, if_pos h3, List.cons_append, decodeFrom_first, firstByte,
      toNat_ofNat_byte (by omega), if_neg (by omega), if_neg (by omega)]
    have hbits : ((0xE0 + n / 4096 - 0xE0) * 64 + n / 64 % 64) * 64 + n % 64 = n := by omega
    by_cases hE0 : n / 4096 = 0
    · rw [if_pos (by omega)]
      simp only [List.cons_append, List.nil_append]
      rw [decodeFrom_tail (by simp only; omega), if_neg (by simp), decodeFrom_tail (by simp only; omega),
        if_pos (by simp)]
      simp only [show (0 * 64 + n / 64 % 64) * 64 + n % 64 = n by omega, hc]
    by_cases hED : n / 4096 = 0xD
    · rw [if_neg (by omega), if_pos (by omega)]
      simp only [List.cons_append, List.nil_append]
      rw [decodeFrom_tail (by simp only; omega), if_neg (by simp), decodeFrom_tail (by simp only; omega),
        if_pos (by simp)]
      simp only [show (0xD * 64 + n / 64 % 64) * 64 + n % 64 = n by omega, hc]
    · rw [if_neg (by omega), if_neg (by omega), if_pos (by omega)]
      simp only [List.cons_append, List.nil_append]
      rw [decodeFrom_tail (by simp only; omega), if_neg (by simp), decodeFrom_tail (by simp only; omega),
        if_pos (by simp)]
      simp only [hbits, hc]
  · rw [if_neg h1, if_neg h2, if_neg h3, List.cons_append, decodeFrom_first, firstByte,
      toNat_ofNat_byte (by omega), if_neg (by omega), if_neg (by omega), if_neg (by omega),
      if_neg (by omega), if_neg (by omega)]
    have hbits : (((0xF0 + n / 262144 - 0xF0) * 64 + n / 4096 % 64) * 64 + n / 64 % 64) * 64 + n % 64 = n := by
      omega
    by_cases hF0 : n / 262144 = 0
    · rw [if_pos (by omega)]
      simp only [List.cons_append, List.nil_append]
      rw [decodeFrom_tail (by simp only; omega), if_neg (by simp), decodeFrom_tail (by simp only; omega),
        if_neg (by simp), decodeFrom_tail (by simp only; omega), if_pos (by simp)]
      simp only [show ((0 * 64 + n / 4096 % 64) * 64 + n / 64 % 64) * 64 + n % 64 = n by omega, hc]
    by_cases hF4 : n / 262144 = 4
    · rw [if_neg (by omega), if_pos (by omega)]
      simp only [List.cons_append, List.nil_append]
      rw [decodeFrom_tail (by simp only; omega), if_neg (by simp), decodeFrom_tail (by simp only; omega),
        if_neg (by simp), decodeFrom_tail (by simp only; omega), if_pos (by simp)]
      simp only [show ((4 * 64 + n / 4096 % 64) * 64 + n / 64 % 64) * 64 + n % 64 = n by omega, hc]
    · rw [if_neg (by omega), if_neg (by omega), if_pos (by omega)]
      simp only [List.cons_append, List.nil_append]
      rw [decodeFrom_tail (by simp only; omega), if_neg (by simp), decodeFrom_tail (by simp only; omega),
        if_neg (by simp), decodeFrom_tail (by simp only; omega), if_pos (by simp)]
      simp only [hbits, hc]

theorem decode_encode (s : List Char) : decode (encode s) = s := by
  induction s with
  | nil => rfl
  | cons c s ih => rw [encode_cons, decode, decodeFrom_encodeChar_append, ← decode, ih]

end Mender.Text
