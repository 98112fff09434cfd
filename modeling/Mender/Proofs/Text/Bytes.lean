import Mathlib.Tactic.SplitIfs
import Mender.Proofs.Text.Splice
import Mender.Text.Encoding

/-! The lines of a file in bytes. A line feed is a byte of its own whatever stands around it, so a file is
read and written line by line: each of its lines reads by itself, and what is written for it are the bytes
that it had only if these spell a text. -/

namespace Mender.Text

def byteLines (bytes : List UInt8) : List (List UInt8) := splitWhere (· == 0x0A) bytes

def joinLines (ls : List (List UInt8)) : List UInt8 := [0x0A].intercalate ls

theorem byteLines_ne_nil (bytes : List UInt8) : byteLines bytes ≠ [] := splitWhere_ne_nil _ bytes

theorem feed_not_mem_of_mem_byteLines {bytes l : List UInt8} (h : l ∈ byteLines bytes) : 0x0A ∉ l :=
  fun hmem => by cases forall_not_of_mem_splitWhere h 0x0A hmem

theorem joinLines_byteLines (bytes : List UInt8) : joinLines (byteLines bytes) = bytes :=
  intercalate_splitWhere 0x0A bytes

theorem joinLines_singleton (l : List UInt8) : joinLines [l] = l := List.intercalate_singleton

theorem joinLines_cons_cons (l l' : List UInt8) (ls : List (List UInt8)) :
    joinLines (l :: l' :: ls) = l ++ 0x0A :: joinLines (l' :: ls) := by
  rw [joinLines, intercalate_cons_cons, List.append_assoc]
  rfl

/-- Bytes that are what is written for some text. -/
def IsUtf8 (bytes : List UInt8) : Prop := ∃ s, encode s = bytes

theorem isUtf8_iff {bytes : List UInt8} : IsUtf8 bytes ↔ encode (decode bytes) = bytes := by
  constructor
  · rintro ⟨s, rfl⟩
    rw [decode_encode]
  · intro h
    exact ⟨decode bytes, h⟩

section Feeds

/-- A character that has been started goes on with bytes that start none, and comes to one past the first
few. -/
structure Started.IsLong (p : Started) : Prop where
  low : 0x80 ≤ p.low
  high : p.high ≤ 0xBF
  bits : 1 ≤ p.bits ∨ 0x90 ≤ p.low

theorem isLong_of_firstByte {b : UInt8} {p : Started} (h : firstByte b = .inr p) : p.IsLong := by
  unfold firstByte at h
  dsimp only at h
  split_ifs at h
  all_goals
    cases h
    constructor <;> dsimp only <;> omega

theorem isLong_of_next? {p q : Started} {b : UInt8} (hp : p.IsLong) (h : p.next? b = some (.inr q)) :
    q.IsLong := by
  obtain ⟨low, high, bits⟩ := hp
  unfold Started.next? at h
  dsimp only at h
  split_ifs at h
  · cases Option.some.inj h
  · obtain rfl := Sum.inr.inj (Option.some.inj h)
    constructor <;> dsimp only <;> omega

theorem toNat_ofNat_of_lt {n : Nat} (h : n < 0x80) : (Char.ofNat n).toNat = n := by
  rw [Char.ofNat, dif_pos (.inl (by omega))]
  rfl

theorem ofNat_ne_feed {n : Nat} (h : 10 < n) : Char.ofNat n ≠ '\n' := by
  intro heq
  have hnat := congrArg Char.toNat heq
  by_cases valid : n.isValidChar
  · rw [Char.ofNat, dif_pos valid] at hnat
    exact absurd hnat (Nat.ne_of_gt h)
  · rw [Char.ofNat, dif_neg valid] at hnat
    cases hnat

theorem ne_feed_of_next? {p : Started} {b : UInt8} {c : Char} (hp : p.IsLong)
    (h : p.next? b = some (.inl c)) : c ≠ '\n' := by
  obtain ⟨low, high, bits⟩ := hp
  unfold Started.next? at h
  dsimp only at h
  split_ifs at h
  · obtain rfl := Sum.inl.inj (Option.some.inj h)
    exact ofNat_ne_feed (by omega)
  · cases Option.some.inj h

theorem eq_feed_of_firstByte {b : UInt8} (h : firstByte b = .inl '\n') : b = 0x0A := by
  unfold firstByte at h
  dsimp only at h
  split_ifs at h with first
  · have hc := congrArg Char.toNat (Sum.inl.inj h)
    rw [toNat_ofNat_of_lt first] at hc
    exact UInt8.toNat.inj hc
  · cases h

/-- What is under way, if anything is, has been started as characters are. -/
def Begun (open? : Option Started) : Prop := ∀ p, open? = some p → p.IsLong

theorem begun_none : Begun none := nofun

theorem begun_some {p : Started} (h : p.IsLong) : Begun (some p) := by
  rintro _ ⟨⟩
  exact h

/-- What one byte lets be read, and what is under way after it. -/
structure Reads (open? : Option Started) (b : UInt8) (read : List Char) (next? : Option Started) : Prop where
  begun : Begun next?
  feed : '\n' ∈ read → b = 0x0A
  decodes : ∀ r, decodeFrom open? (b :: r) = read ++ decodeFrom next? r

theorem exists_reads_none (b : UInt8) : ∃ read next?, Reads none b read next? := by
  cases hb : firstByte b with
  | inl c =>
    refine ⟨[c], none, begun_none, fun hc => ?_, fun r => ?_⟩
    · obtain rfl := List.mem_singleton.1 hc
      exact eq_feed_of_firstByte hb
    · rw [decodeFrom_first, hb]
      rfl
  | inr p =>
    refine ⟨[], some p, begun_some (isLong_of_firstByte hb), (absurd · List.not_mem_nil), fun r => ?_⟩
    rw [decodeFrom_first, hb]
    rfl

theorem exists_reads {open? : Option Started} (begun : Begun open?) (b : UInt8) :
    ∃ read next?, Reads open? b read next? := by
  cases open? with
  | none => exact exists_reads_none b
  | some p =>
    have hp := begun p rfl
    cases hb : p.next? b with
    | none =>
      -- what is under way is given up, and the byte is read as if nothing had been
      obtain ⟨read, next?, first⟩ := exists_reads_none b
      refine ⟨replacement :: read, next?, first.begun, fun hc => ?_, fun r => ?_⟩
      · rcases List.mem_cons.1 hc with hc | hc
        · cases hc
        · exact first.feed hc
      · rw [List.cons_append, ← first.decodes, decodeFrom_first, decodeFrom, hb]
        cases firstByte b <;> rfl
    | some result =>
      cases result with
      | inl c =>
        refine ⟨[c], none, begun_none, fun hc => ?_, fun r => ?_⟩
        · obtain rfl := List.mem_singleton.1 hc
          exact absurd rfl (ne_feed_of_next? hp hb)
        · rw [decodeFrom, hb]
          rfl
      | inr q =>
        refine ⟨[], some q, begun_some (isLong_of_next? hp hb), (absurd · List.not_mem_nil), fun r => ?_⟩
        rw [decodeFrom, hb]
        rfl

/-- A line feed ends what is under way and starts afresh. -/
theorem decodeFrom_feed {open? : Option Started} (begun : Begun open?) (r : List UInt8) :
    decodeFrom open? (0x0A :: r) = decodeFrom open? [] ++ '\n' :: decodeFrom none r := by
  cases open? with
  | none => rfl
  | some p =>
    have hb : p.next? 0x0A = none := by
      have low := (begun p rfl).low
      rw [Started.next?, if_neg]
      rw [show (0x0A : UInt8).toNat = 10 from rfl]
      omega
    simp only [decodeFrom, hb]
    rfl

theorem decodeFrom_append_feed {open? : Option Started} (begun : Begun open?) (a b : List UInt8) :
    decodeFrom open? (a ++ 0x0A :: b) = decodeFrom open? a ++ '\n' :: decodeFrom none b := by
  induction a generalizing open? with
  | nil => exact decodeFrom_feed begun b
  | cons x a ih =>
    obtain ⟨read, next?, reads⟩ := exists_reads begun x
    rw [List.cons_append, reads.decodes, reads.decodes, ih reads.begun, List.append_assoc]

theorem feed_mem_of_mem_decodeFrom {open? : Option Started} (begun : Begun open?) {bytes : List UInt8}
    (h : '\n' ∈ decodeFrom open? bytes) : 0x0A ∈ bytes := by
  induction bytes generalizing open? with
  | nil =>
    cases open? with
    | none => cases h
    | some p => cases List.mem_singleton.1 h
  | cons x bytes ih =>
    obtain ⟨read, next?, reads⟩ := exists_reads begun x
    rw [reads.decodes] at h
    rcases List.mem_append.1 h with h | h
    · exact List.mem_cons.2 (.inl (reads.feed h).symm)
    · exact List.mem_cons_of_mem x (ih reads.begun h)

theorem eq_feed_of_mem_encodeChar {c : Char} (h : 0x0A ∈ encodeChar c) : c = '\n' := by
  have hb := toNat_bounds c
  have isFeed : ∀ n, n < 256 → UInt8.ofNat n = 0x0A → n = 10 := by
    intro n hn he
    have := congrArg UInt8.toNat he
    rwa [toNat_ofNat_byte hn] at this
  have tail : ∀ n, (0x0A : UInt8) ≠ tailByte n := by
    intro n he
    have := isFeed _ (by omega) he.symm
    omega
  unfold encodeChar at h
  dsimp only at h
  split_ifs at h
  · have hc := isFeed _ (by omega) (List.mem_singleton.1 h).symm
    rw [← Char.ofNat_toNat c, hc]
  all_goals
    simp only [List.mem_cons, List.not_mem_nil, or_false, tail] at h
    have := isFeed _ (by omega) h.symm
    omega

theorem feed_mem_of_mem_encode {s : List Char} (h : 0x0A ∈ encode s) : '\n' ∈ s := by
  obtain ⟨c, hc, hmem⟩ := List.mem_flatMap.1 h
  exact eq_feed_of_mem_encodeChar hmem ▸ hc

end Feeds

theorem decode_joinLines (ls : List (List UInt8)) : decode (joinLines ls) = unlines (ls.map decode) := by
  induction ls with
  | nil => rfl
  | cons l ls ih =>
    cases ls with
    | nil => rw [joinLines_singleton, List.map_singleton, unlines_singleton]
    | cons l' ls =>
      rw [joinLines_cons_cons, List.map_cons, List.map_cons, unlines_cons_cons, ← List.map_cons, ← ih,
        decode, decodeFrom_append_feed begun_none]
      rfl

theorem encode_unlines (ls : List (List Char)) : encode (unlines ls) = joinLines (ls.map encode) := by
  induction ls with
  | nil => rfl
  | cons l ls ih =>
    cases ls with
    | nil => rw [unlines_singleton, List.map_singleton, joinLines_singleton]
    | cons l' ls =>
      rw [unlines_cons_cons, encode_append, encode_cons, ih, List.map_cons, List.map_cons,
        List.map_cons, joinLines_cons_cons]
      rfl

theorem lines_decode (bytes : List UInt8) : lines (decode bytes) = (byteLines bytes).map decode := by
  have hfeed : ∀ l ∈ (byteLines bytes).map decode, '\n' ∉ l := by
    intro l hl hmem
    obtain ⟨b, hb, rfl⟩ := List.mem_map.1 hl
    exact feed_not_mem_of_mem_byteLines hb (feed_mem_of_mem_decodeFrom begun_none hmem)
  have hne : (byteLines bytes).map decode ≠ [] := mt List.map_eq_nil_iff.1 (byteLines_ne_nil bytes)
  rw [← lines_unlines hne hfeed, ← decode_joinLines, joinLines_byteLines]

/-- Where one line is replaced by the same bytes, all the others must be the same. -/
theorem joinLines_set_inj {ls ls' : List (List UInt8)} {l : List UInt8} {i : Nat}
    (hls : ∀ l ∈ ls, 0x0A ∉ l) (hls' : ∀ l ∈ ls', 0x0A ∉ l) (hlen : ls.length = ls'.length)
    (hi : i < ls.length) :
    joinLines (ls.set i l) = joinLines (ls'.set i l) ↔ ∀ j, j ≠ i → ls[j]? = ls'[j]? := by
  have parted {ls : List (List UInt8)} (h : ∀ l ∈ ls, 0x0A ∉ l) (hi : i < ls.length) :
      byteLines (joinLines (ls.set i l)) = splice i (byteLines l) ls :=
    splitWhere_intercalate_set 0x0A
      (fun l hl _ hb => beq_eq_false_iff_ne.2 fun he => h l hl (he ▸ hb)) hi
  constructor
  · intro h j hj
    -- the new line may part into several, which stand in the same place on both sides
    have hbytes := congrArg byteLines h
    rw [parted hls hi, parted hls' (hlen ▸ hi)] at hbytes
    exact getElem?_eq_of_splice_eq hlen hbytes hj
  · intro h
    congr 1
    refine List.ext_getElem? fun j => ?_
    by_cases hj : j = i
    · rw [hj, List.getElem?_set_self hi, List.getElem?_set_self (hlen ▸ hi)]
    · rw [List.getElem?_set_ne (Ne.symm hj), List.getElem?_set_ne (Ne.symm hj), h j hj]

theorem encode_unlines_set (bytes : List UInt8) (i : Nat) (fixed : List Char) :
    encode (unlines ((lines (decode bytes)).set i fixed)) =
      joinLines (((byteLines bytes).map (encode ∘ decode)).set i (encode fixed)) := by
  rw [encode_unlines, lines_decode, List.map_set, List.map_map]

/-- Only the bytes of that line are others, exactly if all the other lines spell texts. -/
theorem encode_unlines_set_eq_iff {bytes : List UInt8} {i : Nat} (hi : i < (byteLines bytes).length)
    (fixed : List Char) :
    encode (unlines ((lines (decode bytes)).set i fixed)) =
        joinLines ((byteLines bytes).set i (encode fixed)) ↔
      ∀ j l, (byteLines bytes)[j]? = some l → j ≠ i → IsUtf8 l := by
  have feed : ∀ l ∈ (byteLines bytes).map (encode ∘ decode), 0x0A ∉ l := by
    intro l hl hmem
    obtain ⟨b, hb, rfl⟩ := List.mem_map.1 hl
    exact feed_not_mem_of_mem_byteLines hb
      (feed_mem_of_mem_decodeFrom begun_none (feed_mem_of_mem_encode hmem))
  rw [encode_unlines_set, joinLines_set_inj feed (fun _ => feed_not_mem_of_mem_byteLines)
    (List.length_map _) (by rwa [List.length_map])]
  constructor
  · intro h j l hl hj
    have hat := h j hj
    rw [List.getElem?_map, hl] at hat
    exact isUtf8_iff.2 (Option.some.inj hat)
  · intro h j hj
    rw [List.getElem?_map]
    cases hl : (byteLines bytes)[j]? with
    | none => rfl
    | some l => exact congrArg some (isUtf8_iff.1 (h j l hl hj))

end Mender.Text
