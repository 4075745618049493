import RecordSearch.Proofs.Search.Meaning
import RecordSearch.Proofs.Text.Within
import RecordSearch.Search.Similarity

/-! Texts that stand in a value letter by letter. Term and value are put in lower case apart from each
    other, and the one is found in the other if each capital sigma of the term ends a word in the
    value just if it does in the term (`isMatch_and_score_of_literal`). Where it does not, the value
    may be missed (`isMatch_and_score_of_finalSigma`). -/

namespace RecordSearch.Search

open RecordSearch.Query (Token)

/-- A value that a record has at a scope, or without a scope in one of its fields. -/
def HasAt (scope : Option String) (record value : Record) : Prop :=
  match scope with
  | some path => resolve record path = some value
  | none => value ∈ fieldValues record

theorem atScope_of_hasAt {test : Record → Bool} {scope : Option String} {record value : Record}
    (h : HasAt scope record value) (hvalue : test value = true) :
    atScope test scope record = true := by
  cases scope with
  | none => exact List.any_eq_true.mpr ⟨value, h, hvalue⟩
  | some path =>
    have hresolved : resolve record path = some value := h
    rw [atScope, hresolved]
    exact hvalue

/-- A term that carries a text is not compared. -/
theorem termTest_ofText (kind : Query.Kind) (text : String) (position : Nat)
    (operator : Option Comparison) : TermTest.of (.ofText kind text position) operator =
      TermTest.of (.ofText kind text position) none := by
  cases operator <;> rfl

section Literal

variable {text value : String} {before after : List Char}
  (hvalue : value.toList = before ++ text.toList ++ after)
  (hwords : Text.SameWords before text.toList after)

include hvalue hwords

theorem mentions_of_literal : mentions text (.string value) = true := by
  refine decide_eq_true ?_
  rw [hvalue]
  exact Text.lower_infix hwords

/-- The blanks around a term do not matter to how similar it is. -/
theorem score_of_literal {α : Type} [Arithmetic α] (measure : Measure) :
    (TermScorer.of measure text).score value = (Arithmetic.one : α) := by
  obtain ⟨before', after', hwhole, hwords'⟩ := hwords.trim
  have hcontains : Text.contains (Text.lower (Text.trim text.toList)) (Text.lower value.toList) =
      true := by
    rw [Text.contains_iff, hvalue, hwhole]
    exact Text.lower_infix hwords'
  rw [TermScorer.score]
  split
  · rfl
  · exact if_pos hcontains

/-- A term matches every record that has a value with its text in it, at the scope or in a field, and
    it is as similar to this value as can be, however many edits are allowed: if each capital sigma of
    the text ends a word in the value just if it does in the text. -/
theorem isMatch_and_score_of_literal :
    (∀ (position : Nat) (flags : Flags) (record : Record), HasAt flags.scope record (.string value) →
      isMatch (.ofText .searchTerm text position) flags record = true) ∧
    ∀ {α : Type} [Arithmetic α] (measure : Measure),
      (TermScorer.of measure text).score value = (Arithmetic.one : α) := by
  constructor
  · intro position flags record hrecord
    rw [isMatch, termTest_ofText, record_eq_atScope, value_of_term]
    exact atScope_of_hasAt hrecord (mentions_of_literal hvalue hwords)
  · intro α _ measure
    exact score_of_literal hvalue hwords measure

end Literal

/-- The sigma of `ΟΔΟΣ` ends a word in `Η ΟΔΟΣ ΜΟΥ` too. -/
theorem isMatch_and_score_of_literal_word :
    let record : Record := .object [("title", .string "Η ΟΔΟΣ ΜΟΥ")]
    Text.SameWords "Η ".toList "ΟΔΟΣ".toList " ΜΟΥ".toList ∧
      isMatch (.ofText .searchTerm "ΟΔΟΣ" 0) .root record = true ∧
      isMatch (.ofText .searchTerm "ΟΔΟΣ" 0) (Flags.root.within "title") record = true ∧
      (TermScorer.of (.edits 2 true) "ΟΔΟΣ").score "Η ΟΔΟΣ ΜΟΥ" = (Arithmetic.one : Float) := by
  have hwords : Text.SameWords "Η ".toList "ΟΔΟΣ".toList " ΜΟΥ".toList := by
    intro xs ys h
    have hletters : "ΟΔΟΣ".toList = ['Ο', 'Δ', 'Ο'] ++ 'Σ' :: [] := rfl
    rw [hletters] at h
    obtain ⟨rfl, -, rfl⟩ := (List.append_cons_inj_of_notMem (by decide) (by simp)).mp h
    decide +kernel
  have hvalue : "Η ΟΔΟΣ ΜΟΥ".toList = "Η ".toList ++ "ΟΔΟΣ".toList ++ " ΜΟΥ".toList := rfl
  obtain ⟨hmatch, hscore⟩ := isMatch_and_score_of_literal hvalue hwords
  exact ⟨hwords, hmatch 0 .root _ List.mem_cons_self, hmatch 0 (Flags.root.within "title") _ rfl,
    hscore (.edits 2 true)⟩

/-- The sigma of `ΟΔΟΣ` ends a word, but not in `ΟΔΟΣΗΜΟ`, so this value is missed and is not similar,
    though the text stands in it letter by letter. -/
theorem isMatch_and_score_of_finalSigma :
    let record : Record := .object [("title", .string "ΟΔΟΣΗΜΟ")]
    "ΟΔΟΣΗΜΟ".toList = "ΟΔΟΣ".toList ++ "ΗΜΟ".toList ∧ Text.isBlankText "ΟΔΟΣ".toList = false ∧
      isMatch (.ofText .searchTerm "ΟΔΟΣ" 0) .root record = false ∧
      isMatch (.ofText .searchTerm "ΟΔΟΣ" 0) (Flags.root.within "title") record = false ∧
      (TermScorer.of (.edits 2 true) "ΟΔΟΣ").score "ΟΔΟΣΗΜΟ" = (0 : Float) := by
  refine ⟨rfl, ?_, ?_, ?_, ?_⟩ <;> decide +kernel

end RecordSearch.Search
