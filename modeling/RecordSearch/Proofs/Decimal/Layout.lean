import RecordSearch.Decimal.Layout
import RecordSearch.Text.Blank

/-! What stands in the text of a finite number in a query: decimal digits, at least one, and apart
    from them only a point and a minus. -/

namespace RecordSearch.Decimal

/-- The characters of numbers in queries. -/
def isNumeric (c : Char) : Bool := c.isDigit || c == '.' || c == '-'

theorem isNumeric_of_isDigit {c : Char} (h : c.isDigit = true) : isNumeric c = true := by
  rw [isNumeric, h]
  rfl

theorem isDigit_or_of_isNumeric {c : Char} (h : isNumeric c = true) :
    c.isDigit = true ∨ c = '.' ∨ c = '-' := by
  simpa [isNumeric, or_assoc] using h

theorem isBlank_of_isNumeric {c : Char} (h : isNumeric c = true) : Text.isBlank c = false := by
  rcases isDigit_or_of_isNumeric h with hdigit | rfl | rfl
  · have hrange : 48 ≤ c.toNat ∧ c.toNat ≤ 57 := Char.isDigit_iff_toNat.mp hdigit
    simp only [Text.isBlank, Text.inRanges, Text.blankRanges, List.any_cons, List.any_nil,
      Bool.or_false, Bool.or_eq_false_iff, Bool.and_eq_false_iff, decide_eq_false_iff_not]
    omega
  · decide
  · decide

theorem isDigit_of_mem_digitsOf {n : Nat} {c : Char} (h : c ∈ digitsOf n) : c.isDigit = true :=
  Nat.isDigit_of_mem_toDigits (by decide) (by decide) h

theorem exists_mem_digitsOf (n : Nat) : ∃ c, c ∈ digitsOf n :=
  List.exists_mem_of_ne_nil _ Nat.toDigits_ne_nil

/-! ### Digits with the point in place -/

/-- The characters written in place are the digits, zeros beside them and perhaps a point. -/
theorem mem_positional {d : Digits} {c : Char} :
    (c ∈ digitsOf d.significand → c ∈ (positional "" d).toList) ∧
    (c ∈ (positional "" d).toList → isNumeric c = true) := by
  have hdigits : c ∈ digitsOf d.significand → isNumeric c = true :=
    fun h => isNumeric_of_isDigit (isDigit_of_mem_digitsOf h)
  rw [positional]
  split
  · simp only [String.toList_append, String.toList_ofList, String.toList_empty, List.append_nil,
      List.mem_append, List.mem_replicate]
    refine ⟨Or.inl, ?_⟩
    rintro (h | ⟨-, rfl⟩)
    · exact hdigits h
    · rfl
  · simp only [String.toList_append, String.toList_ofList, List.mem_append]
    generalize hpadded : List.replicate _ '0' ++ digitsOf d.significand = padded
    generalize padded.length - _ = whole
    have hmem : c ∈ padded → isNumeric c = true := by
      rw [← hpadded, List.mem_append, List.mem_replicate]
      rintro (⟨-, rfl⟩ | h)
      · rfl
      · exact hdigits h
    refine ⟨fun h => ?_, ?_⟩
    · have hc : c ∈ padded.take whole ++ padded.drop whole := by
        rw [List.take_append_drop, ← hpadded]
        exact List.mem_append_right _ h
      rcases List.mem_append.mp hc with h | h
      · exact Or.inl (Or.inl h)
      · exact Or.inr h
    · rintro ((h | h) | h)
      · exact hmem (List.mem_of_mem_take h)
      · rw [List.mem_singleton.mp h]
        rfl
      · exact hmem (List.mem_of_mem_drop h)

/-! ### Numbers in queries -/

theorem query_text_of_isFinite {x : Float} (h : isFinite x = true) :
    ∃ d, Layout.query.text x = signed (isNegative x) (positional "" d) := by
  rw [isFinite] at h
  rw [Layout.text]
  split at h
  · next m q hx =>
    rw [hx]
    exact ⟨_, rfl⟩
  · cases h

/-- The text of a finite number consists of digits, points and minuses. -/
theorem isNumeric_of_mem_query_text {x : Float} (h : isFinite x = true) {c : Char}
    (hc : c ∈ (Layout.query.text x).toList) : isNumeric c = true := by
  obtain ⟨d, hd⟩ := query_text_of_isFinite h
  rw [hd, signed] at hc
  split at hc
  · rw [String.toList_append, List.mem_append] at hc
    rcases hc with hc | hc
    · rw [List.mem_singleton.mp hc]
      rfl
    · exact mem_positional.2 hc
  · exact mem_positional.2 hc

/-- The text of a finite number has a digit. -/
theorem exists_digit_query_text {x : Float} (h : isFinite x = true) :
    ∃ c ∈ (Layout.query.text x).toList, c.isDigit = true := by
  obtain ⟨d, hd⟩ := query_text_of_isFinite h
  obtain ⟨c, hc⟩ := exists_mem_digitsOf d.significand
  have hmem : c ∈ (positional "" d).toList := mem_positional.1 hc
  refine ⟨c, ?_, isDigit_of_mem_digitsOf hc⟩
  rw [hd, signed]
  split
  · rw [String.toList_append]
    exact List.mem_append_right _ hmem
  · exact hmem

theorem isBlankText_query_text {x : Float} (h : isFinite x = true) :
    Text.isBlankText (Layout.query.text x).toList = false := by
  obtain ⟨c, hc, hdigit⟩ := exists_digit_query_text h
  rw [Bool.eq_false_iff]
  intro hblank
  have hc' := List.all_eq_true.mp hblank c hc
  rw [isBlank_of_isNumeric (isNumeric_of_isDigit hdigit)] at hc'
  cases hc'

end RecordSearch.Decimal
