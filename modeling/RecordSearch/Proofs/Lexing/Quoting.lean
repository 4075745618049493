import RecordSearch.Proofs.Lexing.Account

/-! When a text has to be quoted. A text is read as the one term that it spells if and only if it is a
    bare word; such a word ends the cut of a query, since quotes and blanks around a term make the query
    longer than the text of the term (`CutInto.bare`). So what is said to need no quotes is just what is
    read back without them, and every text that can be quoted is read back as it is
    (`tokenize_quoteTerm`). -/

namespace RecordSearch.Query

/-! ### Bare words -/

/-- A text that is written without quotes: a word that is no keyword. -/
structure Bare (text : List Char) : Prop where
  nonempty : text ≠ []
  run : ∀ c ∈ text, endsWord c = false
  unmarked : ∀ k : Kind, k.literal ≠ some (String.ofList text)

/-- The test goes through the same characters and keywords as the lexer. -/
theorem needsQuoting_eq_false_iff {text : String} : needsQuoting text = false ↔ Bare text.toList := by
  simp only [needsQuoting, Bool.or_eq_false_iff, beq_eq_false_iff_ne, List.any_eq_false,
    Bool.not_eq_true, String.isEmpty_eq_false_iff, ne_eq, ← String.toList_eq_nil_iff]
  constructor
  · rintro ⟨⟨⟨hempty, hand⟩, hor⟩, hrun⟩
    refine ⟨hempty, hrun, unmarked_of_word hrun ?_ ?_⟩
    · exact fun h => hand (String.toList_inj.mp h)
    · exact fun h => hor (String.toList_inj.mp h)
  · rintro ⟨hempty, hrun, hunmarked⟩
    rw [String.ofList_toList] at hunmarked
    refine ⟨⟨⟨hempty, ?_⟩, ?_⟩, hrun⟩
    · rintro rfl
      exact hunmarked .and rfl
    · rintro rfl
      exact hunmarked .or rfl

/-! ### Texts read as one term -/

section Terms

variable {previous : Option Kind} {position place : Nat} {cs content source rest : List Char}
  {text : String}

/-- What stands for a term is the term as a bare word, or is longer than the term. -/
theorem StandsFor.bare
    (h : StandsFor previous position content source rest (.ofText .searchTerm text place)) :
    source = text.toList ∧ Bare text.toList ∨ text.toList.length < source.length := by
  have hcontent {content : List Char}
      (h : ReadsOperand previous position content (.ofText .searchTerm text place)) :
      text.toList = content := by
    cases h
    exact String.toList_ofList
  generalize htoken : Token.ofText .searchTerm text place = token at h hcontent
  cases h with
  | mark spelled =>
    cases htoken
    cases spelled
  | word nonempty run apart unmarked operand =>
    rw [hcontent operand]
    exact .inl ⟨rfl, nonempty, run, unmarked⟩
  | quoted quoted visible operand =>
    rw [hcontent operand]
    cases quoted with
    | closed unquoted =>
      refine .inr ?_
      simp only [List.length_cons, List.length_append]
      omega
    | unclosed unquoted => exact .inr (Nat.lt_succ_self _)

/-- A query that is cut into one term, and is no longer than the text of it, is this text. -/
theorem CutInto.bare {tokens : List Token} (h : CutInto previous position cs tokens)
    (htokens : tokens = [.ofText .searchTerm text place]) (hlength : cs.length ≤ text.toList.length) :
    cs = text.toList ∧ Bare text.toList := by
  induction h with
  | finish => cases htokens
  | @gap previous position source rest tokens _ _ ih =>
    rw [List.length_append] at hlength
    obtain ⟨rfl, hbare⟩ := ih htokens (by omega)
    obtain rfl : source = [] := List.eq_nil_of_length_eq_zero (by omega)
    exact ⟨rfl, hbare⟩
  | @token previous position content source rest token tokens stands _ _ =>
    obtain ⟨rfl, rfl⟩ := List.cons.inj htokens
    rw [List.length_append] at hlength
    rcases stands.bare with ⟨rfl, hbare⟩ | hlonger
    · obtain rfl : rest = [] := List.eq_nil_of_length_eq_zero (by omega)
      exact ⟨List.append_nil _, hbare⟩
    · omega

theorem readsOperand_first : ReadsOperand none position text.toList (.ofText .searchTerm text position) := by
  have hterm : ReadsOperand none position text.toList
      ⟨.searchTerm, .text (String.ofList text.toList), position⟩ := .term nofun
  rwa [String.ofList_toList] at hterm

/-- A bare word is cut into itself. -/
theorem Bare.cutInto (h : Bare text.toList) :
    CutInto none 0 text.toList [.ofText .searchTerm text 0] := by
  have hword : StandsFor none 0 text.toList text.toList [] (.ofText .searchTerm text 0) :=
    .word h.nonempty h.run (.inl rfl) h.unmarked readsOperand_first
  have hcut := CutInto.token hword .finish
  rwa [List.append_nil] at hcut

/-- What is not blank and has no quotes may be put into quotes. -/
theorem cutInto_quoted (hvisible : Text.isBlankText text.toList = false) (hquote : '"' ∉ text.toList) :
    CutInto none 0 ("\"" ++ text ++ "\"").toList [.ofText .searchTerm text 0] := by
  have hquoted : StandsFor none 0 text.toList ('"' :: (text.toList ++ ['"'])) []
      (.ofText .searchTerm text 0) := .quoted (.closed hquote) hvisible readsOperand_first
  have hcut := CutInto.token hquoted .finish
  rw [List.append_nil] at hcut
  simpa using hcut

end Terms

/-! ### Quoting -/

theorem tokenize_eq_singleton_iff {text : String} :
    tokenize text = [.ofText .searchTerm text 0] ↔ Bare text.toList := by
  rw [tokenize_eq_iff]
  constructor
  · intro h
    exact (h.bare rfl (Nat.le_refl _)).2
  · exact Bare.cutInto

/-- The term of a query is never blank, and there is no quote in it. -/
theorem visible_of_mem_tokenize {query text : String} {position : Nat}
    (h : Token.ofText .searchTerm text position ∈ tokenize query) :
    Text.isBlankText text.toList = false ∧ '"' ∉ text.toList := by
  obtain ⟨previous, hsuits⟩ := (tokenize_suits query).exists_of_mem h
  have hne : text ≠ "" := tokenize_ne_empty h rfl
  generalize htoken : Token.ofText .searchTerm text position = token at hsuits
  cases hsuits with
  | term unquoted visible _ =>
    cases htoken
    exact ⟨Bool.eq_false_iff.mpr fun hblank => hne (visible hblank), unquoted⟩
  | number => cases htoken
  | mark spelled =>
    cases htoken
    cases spelled

/-- A text is said to need no quotes if and only if it is read as the one term that it spells, at the
    start; and as it is written with quotes where it needs them, it is read as this term if and only if
    it is not blank and has no quote in it. -/
theorem tokenize_quoteTerm (text : String) :
    (needsQuoting text = false ↔ tokenize text = [.ofText .searchTerm text 0]) ∧
    (tokenize (quoteTerm text) = [.ofText .searchTerm text 0] ↔
      Text.isBlankText text.toList = false ∧ '"' ∉ text.toList) := by
  have hbare : needsQuoting text = false ↔ tokenize text = [.ofText .searchTerm text 0] := by
    rw [needsQuoting_eq_false_iff, tokenize_eq_singleton_iff]
  refine ⟨hbare, ?_, ?_⟩
  · intro h
    exact visible_of_mem_tokenize (h ▸ List.mem_singleton_self _)
  · rintro ⟨hvisible, hquote⟩
    cases hquoting : needsQuoting text with
    | false =>
      rw [quoteTerm, hquoting]
      exact hbare.mp hquoting
    | true =>
      have hwritten : quoteTerm text = "\"" ++ text ++ "\"" := by
        simp [quoteTerm, hquoting, hquote]
      rw [hwritten, tokenize_eq_iff]
      exact cutInto_quoted hvisible hquote

end RecordSearch.Query
