import RecordSearch.Proofs.Lexing.Account
import RecordSearch.Proofs.Stability

/-! What a repair makes of what was typed. A leaf within a query stands where a token of the query
    begins, and there is one content written there: a mark, a bare word, or what stands in quotes
    (`WrittenAt.unique`). A term has this content for its text, unless it was read as a number after a
    comparison: a number is kept by its value alone, and a term that is made of it has the text that
    the value is printed as (`compile_typed`). -/

namespace RecordSearch.Query

/-- A token that begins at a byte offset of a text, with what is written there for its content. -/
def WrittenAt (text : List Char) (place : Nat) (content : List Char) (token : Token) : Prop :=
  ∃ previous before source rest, text = before ++ (source ++ rest) ∧
    Text.byteLength before = place ∧ StandsFor previous place content source rest token

section Contents

variable {previous : Option Kind} {position : Nat} {content source rest : List Char} {token : Token}

theorem ReadsOperand.position_eq (h : ReadsOperand previous position content token) :
    token.position = position := by
  cases h <;> rfl

theorem StandsFor.position_eq (h : StandsFor previous position content source rest token) :
    token.position = position := by
  cases h with
  | mark => rfl
  | word _ _ _ _ operand => exact operand.position_eq
  | quoted _ _ operand => exact operand.position_eq

/-- Every token of a text begins where it is said to. -/
theorem CutInto.exists_stands {text : List Char} {tokens : List Token}
    (h : CutInto previous position text tokens) (hmem : token ∈ tokens) :
    ∃ previous before content source rest, text = before ++ (source ++ rest) ∧
      position + Text.byteLength before = token.position ∧
      StandsFor previous token.position content source rest token := by
  induction h with
  | finish => cases hmem
  | @gap _ position source rest _ _ _ ih =>
    obtain ⟨previous, before, content, source', rest', rfl, hplace, hstands⟩ := ih hmem
    refine ⟨previous, source ++ before, content, source', rest', ?_, ?_, hstands⟩
    · rw [List.append_assoc]
    · rw [byteLength_append, ← hplace, Nat.add_assoc]
  | @token previous position content source rest _ _ stands _ ih =>
    rcases List.mem_cons.mp hmem with rfl | hmem
    · exact ⟨previous, [], content, source, rest, rfl, stands.position_eq.symm,
        stands.position_eq.symm ▸ stands⟩
    · obtain ⟨previous, before, content, source', rest', rfl, hplace, hstands⟩ := ih hmem
      refine ⟨previous, source ++ before, content, source', rest', ?_, ?_, hstands⟩
      · rw [List.append_assoc]
      · rw [byteLength_append, ← hplace, Nat.add_assoc]

theorem exists_writtenAt {query : String} (hmem : token ∈ tokenize query) :
    ∃ content, WrittenAt query.toList token.position content token := by
  obtain ⟨previous, before, content, source, rest, htext, hplace, hstands⟩ :=
    (tokenize_eq_iff.mp rfl).exists_stands hmem
  exact ⟨content, previous, before, source, rest, htext, by omega, hstands⟩

/-! ### One content at one place -/

/-- The content of a source, which is what stands in quotes if it begins with one. -/
def contentOf : List Char → List Char
  | [] => []
  | c :: cs => if c = '"' then cs.takeWhile (· != '"') else c :: cs

theorem contentOf_inQuotes (h : InQuotes content source rest) : contentOf source = content := by
  cases h with
  | closed unquoted =>
    rw [contentOf, if_pos rfl, List.takeWhile_append_of_pos (bne_quote unquoted)]
    simp
  | unclosed unquoted =>
    rw [contentOf, if_pos rfl, ← List.append_nil content,
      List.takeWhile_append_of_pos (bne_quote unquoted)]
    rfl

theorem StandsFor.contentOf_eq (h : StandsFor previous position content source rest token) :
    contentOf source = content := by
  cases h with
  | @mark k literal rest spelled parted =>
    cases k <;> cases spelled <;> rfl
  | word nonempty run apart unmarked operand =>
    cases content with
    | nil => exact absurd rfl nonempty
    | cons c cs =>
      refine if_neg ?_
      rintro rfl
      exact absurd (run _ List.mem_cons_self) (by decide)
  | quoted quoted visible operand => exact contentOf_inQuotes quoted

theorem source_first_eq (previous previous' : Option Kind) (position position' : Nat) (c : Char)
    (cs : List Char) : (Lexeme.first previous position c cs).source =
      (Lexeme.first previous' position' c cs).source := by
  unfold Lexeme.first
  split
  · rfl
  · split <;> rfl

theorem eq_nil_of_byteLength : ∀ {cs : List Char}, Text.byteLength cs = 0 → cs = []
  | [], _ => rfl
  | c :: cs, h => by
      have hpositive := c.utf8Size_pos
      rw [byteLength_cons] at h
      omega

/-- Texts that another one begins with are the same if they are of one length. -/
theorem eq_of_byteLength_eq {before before' after after' : List Char}
    (h : before ++ after = before' ++ after')
    (hlength : Text.byteLength before = Text.byteLength before') :
    before = before' ∧ after = after' := by
  obtain ⟨more, rfl, hafter⟩ | ⟨more, rfl, hafter⟩ := List.append_eq_append_iff.mp h
  · rw [byteLength_append, Nat.left_eq_add] at hlength
    rw [hafter, eq_nil_of_byteLength hlength, List.append_nil]
    exact ⟨rfl, rfl⟩
  · rw [byteLength_append, Nat.add_eq_left] at hlength
    rw [hafter, eq_nil_of_byteLength hlength, List.append_nil]
    exact ⟨rfl, rfl⟩

/-- There is one content at a place. -/
theorem WrittenAt.unique {text : List Char} {place : Nat} {content' : List Char} {token' : Token}
    (h : WrittenAt text place content token) (h' : WrittenAt text place content' token') :
    content = content' := by
  obtain ⟨_, before, source, rest, rfl, hplace, hstands⟩ := h
  obtain ⟨_, before', source', rest', htext, hplace', hstands'⟩ := h'
  obtain ⟨rfl, hafter⟩ := eq_of_byteLength_eq htext (hplace.trans hplace'.symm)
  obtain ⟨c, cs, rfl, hfirst⟩ := hstands.first
  obtain ⟨d, ds, rfl, hfirst'⟩ := hstands'.first
  rw [List.cons_append, List.cons_append, List.cons.injEq] at hafter
  obtain ⟨rfl, hrest⟩ := hafter
  have hsources := congrArg Lexeme.source hfirst'
  rw [← hrest, source_first_eq _ _ _ place, hfirst] at hsources
  rw [← hstands.contentOf_eq, ← hstands'.contentOf_eq]
  exact congrArg contentOf hsources

end Contents

/-! ### Terms of repaired queries -/

theorem KeptAll.exists_mem {y : Token} : ∀ {xs ys : List Token}, KeptAll xs ys → y ∈ ys →
    ∃ x ∈ xs, x.Kept y
  | _, _, .cons h _, .head _ => ⟨_, List.mem_cons_self, h⟩
  | _, _, .cons _ rest, .tail _ hmem => by
      obtain ⟨x, hx, hkept⟩ := KeptAll.exists_mem rest hmem
      exact ⟨x, List.mem_cons_of_mem _ hx, hkept⟩

/-- A leaf before the end of the query is kept of one of its tokens. -/
theorem Repaired.exists_kept {place : Nat} {xs leaves : List Token} {leaf : Token}
    (h : Repaired place xs leaves) (hmem : leaf ∈ leaves) (hplace : leaf.position < place) :
    ∃ x ∈ xs, x.Kept leaf := by
  cases h with
  | @complete ys kept closings =>
    rcases List.mem_append.mp hmem with hmem | hmem
    · exact kept.exists_mem hmem
    · have hposition := List.mem_map_of_mem (f := Token.position) hmem
      rw [map_position_added] at hposition
      have hbeyond := (List.mem_range'_1.mp hposition).1
      omega
  | cut kept =>
    obtain ⟨x, hx, hkept⟩ := kept.exists_mem hmem
    exact ⟨x, List.mem_of_mem_take hx, hkept⟩

section Lexemes

variable {previous : Option Kind} {position : Nat} {content source rest : List Char} {token : Token}
  {x : Float}

/-- What is not read as a number has its content for its text. -/
theorem StandsFor.lexeme_eq (h : StandsFor previous position content source rest token)
    (hwordy : ∀ x, token.content ≠ .number x) : token.lexeme = String.ofList content := by
  have hoperand : ReadsOperand previous position content token →
      token.lexeme = String.ofList content := by
    rintro (_ | _)
    · exact absurd rfl (hwordy _)
    · rfl
  cases h with
  | @mark k literal _ spelled =>
    rw [Token.ofKind, spelled, String.ofList_toList]
    rfl
  | word _ _ _ _ operand => exact hoperand operand
  | quoted _ _ operand => exact hoperand operand

theorem StandsFor.reads (h : StandsFor previous position content source rest token)
    (hx : token.content = .number x) : Decimal.readFinite content = some x := by
  have hoperand : ReadsOperand previous position content token →
      Decimal.readFinite content = some x := by
    rintro (⟨-, reads⟩ | _)
    · rw [reads, Content.number.inj hx]
    · cases hx
  cases h with
  | mark => cases hx
  | word _ _ _ _ operand => exact hoperand operand
  | quoted _ _ operand => exact hoperand operand

end Lexemes

/-- A term has no number for its text where the leaf before it is a comparison. -/
theorem Token.Suits.not_compared {previous : Option Kind} {position : Nat} {x : Float}
    (h : (Token.ofText .searchTerm (Decimal.Layout.query.text x) position).Suits previous)
    (hx : Decimal.isFinite x = true) : previous.any Kind.isComparison = false := by
  rw [Bool.eq_false_iff]
  intro hcompared
  cases h with
  | term _ _ wordy =>
    have hnone := wordy hcompared
    rw [Decimal.readFinite_query_text hx] at hnone
    cases hnone
  | mark spelled => cases spelled

/-- Every term of a repaired query that stands within the query has the content written there for its
    text, unless this was read as a number: then its text is that number printed, and the comparison
    that the number was typed after is no longer one in the tree. -/
theorem compile_typed (query : String) : ∃ t, compile true query = .ok t ∧
    ∀ before leaf after, t.leaves = before ++ leaf :: after → leaf.kind = .searchTerm →
      leaf.position < Text.byteLength query.toList →
      ∃ content, ∃ token ∈ tokenize query, WrittenAt query.toList leaf.position content token ∧
        ((∀ x, token.content ≠ .number x) → leaf.lexeme = String.ofList content) ∧
        ∀ x, token.content = .number x → Decimal.readFinite content = some x ∧
          leaf.lexeme = Decimal.Layout.query.text x ∧
          (lastKind none before).any Kind.isComparison = false := by
  obtain ⟨t, h⟩ := exists_compile query
  refine ⟨t, h, fun before leaf after hleaves hterm hplace => ?_⟩
  have hmem : leaf ∈ t.leaves := hleaves ▸ List.mem_append_right _ List.mem_cons_self
  have hrepaired := leaves_of_parseRepaired (parseRepaired_of_compile h)
  obtain ⟨token, htoken, hkept⟩ := hrepaired.exists_kept hmem hplace
  obtain ⟨content, hwritten⟩ := exists_writtenAt htoken
  obtain ⟨previous, _, source, rest, -, -, hstands⟩ := id hwritten
  refine ⟨content, token, htoken, hkept.position_eq ▸ hwritten, fun hwordy => ?_, fun x hx => ?_⟩
  · rw [hkept.lexeme_eq, hstands.lexeme_eq hwordy]
  · have hlexeme : token.lexeme = Decimal.Layout.query.text x := by rw [Token.lexeme, hx]
    have hreads := hstands.reads hx
    refine ⟨hreads, hkept.lexeme_eq.trans hlexeme, ?_⟩
    have hsuits := (suits_of_compile h).2
    rw [hleaves, sequence_append] at hsuits
    obtain rfl : leaf = .ofText .searchTerm (Decimal.Layout.query.text x) token.position := by
      rcases hkept with rfl | rfl
      · -- a token that carries a number is no term
        obtain ⟨_, hleaf⟩ := (tokenize_suits query).exists_of_mem htoken
        cases hleaf with
        | term => cases hx
        | number => cases hterm
        | mark => cases hx
      · rw [hlexeme]
    exact hsuits.2.1.not_compared (isFinite_of_readFinite hreads)

/-- The first `>` of `>>5.0` stays a comparison and the second becomes a term, and so does the number
    after it: its text is `5`, but what is written there is `5.0`. -/
theorem compile_typed_twoComparisons :
    ∃ t leaf, compile true ">>5.0" = .ok t ∧ leaf ∈ t.leaves ∧ leaf.kind = .searchTerm ∧
      leaf.position = 2 ∧ leaf.lexeme = "5" ∧
      ∀ content token, WrittenAt ">>5.0".toList leaf.position content token →
        String.ofList content = "5.0" := by
  obtain ⟨t, h⟩ := exists_compile ">>5.0"
  have hcompiled : (compile true ">>5.0").toOption.map
      (fun t => t.leaves.map fun leaf => (leaf.kind, leaf.position, leaf.lexeme)) =
      some [(.gt, 0, ">"), (.searchTerm, 1, ">"), (.searchTerm, 2, "5")] := by decide +kernel
  rw [h] at hcompiled
  have hleaves : t.leaves.map (fun leaf => (leaf.kind, leaf.position, leaf.lexeme)) =
      [(.gt, 0, ">"), (.searchTerm, 1, ">"), (.searchTerm, 2, "5")] := Option.some.inj hcompiled
  obtain ⟨leaf, hmem, hleaf⟩ : ∃ leaf ∈ t.leaves,
      (leaf.kind, leaf.position, leaf.lexeme) = (.searchTerm, 2, "5") := by
    rw [← List.mem_map, hleaves]
    decide
  simp only [Prod.mk.injEq] at hleaf
  obtain ⟨hkind, hposition, hlexeme⟩ := hleaf
  have htyped : WrittenAt ">>5.0".toList 2 ['5', '.', '0'] ⟨.number, .number 5, 2⟩ := by
    have hrun : (['5', '.', '0'].all fun c => !endsWord c) = true := by decide +kernel
    refine ⟨some .gt, ['>', '>'], ['5', '.', '0'], [], rfl, rfl, ?_⟩
    refine .word (List.cons_ne_nil _ _) (fun c hc => ?_) (.inl rfl) (fun k => ?_)
      (.number rfl (by decide +kernel))
    · simpa using List.all_eq_true.mp hrun c hc
    · cases k <;> decide
  refine ⟨t, leaf, h, hmem, hkind, hposition, hlexeme, fun content token hwritten => ?_⟩
  rw [hposition] at hwritten
  rw [hwritten.unique htyped]

end RecordSearch.Query
