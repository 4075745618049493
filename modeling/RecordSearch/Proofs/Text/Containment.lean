import Mathlib.Data.List.Infix
import RecordSearch.Text.Lowercase

/-! Containment of texts. `contains` decides whether one text is a stretch of another, and digits are
    not changed by lower-casing, so a text without digits mentions none that has one. -/

namespace RecordSearch.Text

/-- A text is contained in another when it is a stretch of it. -/
theorem contains_iff {needle : List Char} : ∀ {cs : List Char},
    contains needle cs = true ↔ needle <:+: cs
  | [] => by rw [contains, List.isEmpty_iff, List.infix_nil]
  | c :: cs => by
      rw [contains, Bool.or_eq_true, List.isPrefixOf_iff_prefix, contains_iff, List.infix_cons_iff]

theorem contains_eq_decide (needle cs : List Char) :
    contains needle cs = decide (needle <:+: cs) := by
  rw [Bool.eq_iff_iff, contains_iff, decide_eq_true_iff]

/-! ### Digits in lower case -/

theorem lowerBetween_of_isDigit {c : Char} (h : c.isDigit = true) (before after : List Char) :
    lowerBetween before c after = [c] := by
  have hrange : 48 ≤ c.toNat ∧ c.toNat ≤ 57 := Char.isDigit_iff_toNat.mp h
  have hsigma : c ≠ 'Σ' := by
    rintro rfl
    revert hrange
    decide
  have hascii : c.toNat < 0x80 := by omega
  have hupper : ¬ (65 ≤ c.toNat ∧ c.toNat ≤ 90) := by omega
  have hlower : c.toLower = c := dif_neg hupper
  rw [lowerBetween, if_neg hsigma, lowerChar, if_pos hascii, hlower]

theorem mem_lowerFrom_of_isDigit {c : Char} (h : c.isDigit = true) :
    ∀ {cs : List Char} (before : List Char), c ∈ cs → c ∈ lowerFrom before cs
  | d :: cs, before, hc => by
      rw [lowerFrom, List.mem_append]
      rcases List.mem_cons.mp hc with rfl | hc
      · exact Or.inl (by rw [lowerBetween_of_isDigit h]; exact List.mem_singleton_self c)
      · exact Or.inr (mem_lowerFrom_of_isDigit h _ hc)

/-- Lower-casing keeps digits. -/
theorem mem_lower_of_isDigit {c : Char} {cs : List Char} (h : c.isDigit = true) (hc : c ∈ cs) :
    c ∈ lower cs := mem_lowerFrom_of_isDigit h [] hc

end RecordSearch.Text
