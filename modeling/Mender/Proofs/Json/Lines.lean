import Mender.Json.Printer
import Mender.Proofs.Number.Numeral
import Mender.Proofs.Text.Delimited

/-! The lines of a printed value. Texts are printed on one line and numbers without brackets, so no line
opens a tag, whatever the texts in a value are. -/

namespace Mender

open Mender.Text

section Numbers

theorem Decimal.angle_not_mem_significant (d : Decimal) : '<' ∉ d.significant.1 := by
  intro h
  have := Number.isDigit_of_mem_toDigits _ (List.mem_reverse.1 ((List.dropWhile_sublist _).subset
    (List.mem_reverse.1 h)))
  cases this

theorem Decimal.angle_not_mem_zeros (n : Int) : '<' ∉ zeros n := fun h => by
  cases List.eq_of_mem_replicate h

theorem Decimal.angle_not_mem_exponentText (e : Int) : '<' ∉ exponentText e := by
  intro h
  unfold exponentText at h
  rcases List.mem_cons.1 h with h | h
  · cases h
  · rcases List.mem_cons.1 h with h | h
    · split at h <;> cases h
    · cases Number.isDigit_of_mem_toDigits _ h

theorem Decimal.angle_not_mem_toText (d : Decimal) : '<' ∉ d.toText := by
  have digits := d.angle_not_mem_significant
  unfold toText
  generalize d.significant = p at digits
  obtain ⟨ds, point⟩ := p
  dsimp only at digits ⊢
  split_ifs
  · simp [digits, angle_not_mem_zeros]
  · have before : '<' ∉ ds.take point.toNat := fun h => digits (List.mem_of_mem_take h)
    have after : '<' ∉ ds.drop point.toNat := fun h => digits (List.mem_of_mem_drop h)
    simp [before, after]
  · simp [digits, angle_not_mem_zeros]
  · cases ds with
    | nil => exact List.not_mem_nil
    | cons digit more =>
      rw [List.mem_cons, not_or] at digits
      have exponent := angle_not_mem_exponentText (point - 1)
      cases more with
      | nil => simp [digits.1, exponent]
      | cons next more => simpa [digits.1, exponent] using digits.2

theorem Number.angle_not_mem_chars (x : Number) : '<' ∉ x.chars := by
  have positive (count : Nat) : '<' ∉ countText count := by
    unfold countText
    split
    · intro h
      cases isDigit_of_mem_toDigits _ h
    · exact Decimal.angle_not_mem_toText _
  cases x with
  | nan => decide
  | infinite negative => cases negative <;> decide
  | finite count hc =>
    rw [chars]
    split <;> simp [positive]

end Numbers

namespace Json

theorem newline_not_mem_escapeChar (c : Char) : '\n' ∉ escapeChar c := by
  have hex : ∀ n < 0x20, '\n' ∉ hexDigits n := by decide
  unfold escapeChar
  split_ifs with _ _ newline _ _ _ _ control
  all_goals try decide
  · simpa using hex _ control
  · simpa using Ne.symm newline

theorem untagged_quote (s : String) : Untagged (quote s) := by
  refine untagged_of_oneLine ?_ ?_
  · simp [quote, newline_not_mem_escapeChar]
  · simp [quote, lead?]

theorem untagged_newLine (depth : Nat) : Untagged (newLine depth) := by
  refine untagged_of_not_mem ?_
  simp [newLine]

theorem untagged_intercalate {sep : List Char} (hsep : Untagged sep) {items : List (List Char)}
    (h : ∀ item ∈ items, Untagged item) : Untagged (sep.intercalate items) := by
  induction items with
  | nil => exact untagged_of_not_mem List.not_mem_nil
  | cons item items ih =>
    rw [List.forall_mem_cons] at h
    cases items with
    | nil =>
      rw [List.intercalate_singleton]
      exact h.1
    | cons next items =>
      rw [intercalate_cons_cons]
      exact (h.1.append hsep).append (ih h.2)

theorem untagged_bracket {opening closing : Char} (hopening : opening ≠ '<') (hclosing : closing ≠ '<')
    (depth : Nat) {items : List (List Char)} (h : ∀ item ∈ items, Untagged item) :
    Untagged (bracket opening closing depth items) := by
  have single {c : Char} (hc : c ≠ '<') : Untagged [c] := untagged_of_not_mem (by simpa using Ne.symm hc)
  have comma : Untagged (',' :: newLine (depth + 1)) := (single (by decide)).append (untagged_newLine _)
  unfold bracket
  split
  case isTrue => exact (single hopening).append (single hclosing)
  case isFalse =>
    have inner := (untagged_newLine (depth + 1)).append (untagged_intercalate comma h)
    exact (((single hopening).append inner).append (untagged_newLine depth)).append (single hclosing)

mutual

theorem untagged_print (depth : Nat) : (v : Json) → Untagged (print depth v)
  | .absent | .null => by
    rw [print]
    exact untagged_of_not_mem (by decide)
  | .bool b => by
    rw [print]
    exact untagged_of_not_mem (by cases b <;> decide)
  | .number n => by
    cases n with
    | finite count hc =>
      rw [print]
      exact untagged_of_not_mem (Number.angle_not_mem_chars _)
    | nan | infinite =>
      rw [print]
      · exact untagged_of_not_mem (by decide)
      · simp
  | .text s => by
    rw [print]
    exact untagged_quote s
  | .list items => by
    rw [print]
    exact untagged_bracket (by decide) (by decide) depth (untagged_printItems (depth + 1) items)
  | .object members => by
    rw [print]
    exact untagged_bracket (by decide) (by decide) depth (untagged_printMembers (depth + 1) members)

theorem untagged_printItems (depth : Nat) :
    (items : List Json) → ∀ item ∈ printItems depth items, Untagged item
  | [] => by simp [printItems]
  | item :: items => by
    rw [printItems, List.forall_mem_cons]
    exact ⟨untagged_print depth item, untagged_printItems depth items⟩

theorem untagged_printMembers (depth : Nat) :
    (members : List (String × Json)) → ∀ item ∈ printMembers depth members, Untagged item
  | [] => by simp [printMembers]
  | (name, value) :: members => by
    rw [printMembers]
    split
    · exact untagged_printMembers depth members
    · rw [List.forall_mem_cons]
      have colon : Untagged ": ".toList := untagged_of_not_mem (by decide)
      exact ⟨((untagged_quote name).append colon).append (untagged_print depth value),
        untagged_printMembers depth members⟩

end

end Json
end Mender
