import RecordSearch.Query.Lexer

/-! The tokens that a query is cut into. A token suits the kind of the one before it when it carries
    what its kind calls for: a term carries text without a double quote that is not blank, unless it
    is empty, and after a comparison it does not spell a number. The lexer makes only such tokens
    (`tokenize_suits`). -/

namespace RecordSearch.Query

/-- Every token stands in a relation to the kind of the one before it. -/
def Sequence (R : Option Kind → Token → Prop) : Option Kind → List Token → Prop
  | _, [] => True
  | previous, token :: rest => R previous token ∧ Sequence R (some token.kind) rest

/-- The kind of the last token, or without one the kind before. -/
def lastKind (previous : Option Kind) : List Token → Option Kind
  | [] => previous
  | token :: rest => lastKind (some token.kind) rest

section Sequences

variable {R R' : Option Kind → Token → Prop}

theorem lastKind_append : ∀ (previous : Option Kind) (xs ys : List Token),
    lastKind previous (xs ++ ys) = lastKind (lastKind previous xs) ys
  | _, [], _ => rfl
  | _, x :: xs, ys => lastKind_append (some x.kind) xs ys

theorem sequence_append : ∀ {previous : Option Kind} {xs ys : List Token},
    Sequence R previous (xs ++ ys) ↔
      Sequence R previous xs ∧ Sequence R (lastKind previous xs) ys
  | _, [], _ => by rw [List.nil_append, Sequence, true_and, lastKind]
  | _, x :: xs, ys => by
      rw [List.cons_append, Sequence, sequence_append, Sequence, and_assoc]
      rfl

theorem Sequence.and : ∀ {previous : Option Kind} {tokens : List Token},
    Sequence R previous tokens → Sequence R' previous tokens →
      Sequence (fun previous token => R previous token ∧ R' previous token) previous tokens
  | _, [], _, _ => trivial
  | _, _ :: _, h, h' => ⟨⟨h.1, h'.1⟩, h.2.and h'.2⟩

/-- What one relation gives for tokens of a list, another may be shown to give. -/
theorem Sequence.imp : ∀ {previous : Option Kind} {tokens : List Token},
    Sequence R previous tokens → (∀ previous, ∀ token ∈ tokens, R previous token → R' previous token) →
      Sequence R' previous tokens
  | _, [], _, _ => trivial
  | _, _ :: _, h, himp => ⟨himp _ _ List.mem_cons_self h.1,
      h.2.imp fun _ _ hmem => himp _ _ (List.mem_cons_of_mem _ hmem)⟩

theorem Sequence.exists_of_mem {token : Token} : ∀ {previous : Option Kind} {tokens : List Token},
    Sequence R previous tokens → token ∈ tokens → ∃ previous, R previous token
  | _, _ :: _, h, .head _ => ⟨_, h.1⟩
  | _, _ :: _, h, .tail _ hmem => h.2.exists_of_mem hmem

end Sequences

/-- A token carries what its kind calls for after a token of the given kind. -/
inductive Token.Suits (previous : Option Kind) : Token → Prop
  | term {text : String} {position : Nat} (unquoted : '"' ∉ text.toList)
      (visible : Text.isBlankText text.toList = true → text = "")
      (wordy : previous.any Kind.isComparison = true → Decimal.readFinite text.toList = none) :
      Suits previous ⟨.searchTerm, .text text, position⟩
  | number {x : Float} {position : Nat} (finite : Decimal.isFinite x = true) :
      Suits previous ⟨.number, .number x, position⟩
  | mark {k : Kind} {literal : String} {position : Nat} (spelled : k.literal = some literal) :
      Suits previous ⟨k, .text literal, position⟩

/-- A token that is marked as a number carries a finite one. -/
theorem Token.Suits.exists_number {previous : Option Kind} {token : Token}
    (h : token.Suits previous) (hnumber : token.kind = .number) :
    ∃ x, token.content = .number x ∧ Decimal.isFinite x = true := by
  cases h with
  | term => cases hnumber
  | @number x position finite => exact ⟨x, rfl, finite⟩
  | @mark k literal position spelled =>
    obtain rfl : k = .number := hnumber
    cases spelled

/-! ### Lexemes -/

theorem isFinite_of_readFinite {cs : List Char} {x : Float}
    (h : Decimal.readFinite cs = some x) : Decimal.isFinite x = true := by
  rw [Decimal.readFinite, Option.filter_eq_some_iff] at h
  exact h.2

namespace Lexeme

theorem operand_suits {previous : Option Kind} {content : List Char} (position : Nat)
    (hquote : '"' ∉ content) (hblank : Text.isBlankText content = false) :
    (operand previous position content).Suits previous := by
  rw [operand]
  split
  · next x hx =>
    split at hx
    · exact .number (isFinite_of_readFinite hx)
    · cases hx
  · next hnone =>
    refine .term ?_ ?_ ?_
    · rwa [String.toList_ofList]
    · rw [String.toList_ofList, hblank]
      intro h
      cases h
    · intro hprevious
      rw [String.toList_ofList]
      simpa only [hprevious, if_true] using hnone

theorem endsWord_quote : endsWord '"' = true := by decide

theorem quoted_suits {previous : Option Kind} {position : Nat} {cs : List Char} {token : Token}
    (h : (quoted previous position cs).token = some token) : token.Suits previous := by
  simp only [quoted] at h
  split at h
  · cases h
  · next hblank =>
    rw [← Option.some.inj h]
    refine operand_suits position (fun hmem => ?_) (Bool.eq_false_iff.mpr hblank)
    have hne := List.all_eq_true.mp List.all_takeWhile _ hmem
    simp at hne

theorem word_suits {previous : Option Kind} {position : Nat} {c : Char} {cs : List Char}
    {token : Token} (hquote : c ≠ '"') (hblank : Text.isBlank c = false)
    (h : (word previous position c cs).token = some token) : token.Suits previous := by
  rw [word, Option.some.injEq] at h
  split at h
  · rw [← h]
    exact .mark rfl
  · split at h
    · rw [← h]
      exact .mark rfl
    · rw [← h]
      refine operand_suits position (fun hmem => ?_) ?_
      · rcases List.mem_cons.mp hmem with heq | hmem
        · exact hquote heq.symm
        · have hends := List.all_eq_true.mp List.all_takeWhile _ hmem
          rw [endsWord_quote] at hends
          cases hends
      · rw [Text.isBlankText, List.all_cons, hblank, Bool.false_and]

/-- Every lexeme stands for a token that suits the one before. -/
theorem first_suits {previous : Option Kind} {position : Nat} {c : Char} {cs : List Char}
    {token : Token} (h : (first previous position c cs).token = some token) :
    token.Suits previous := by
  unfold first at h
  split at h
  · cases h
  · next hblank =>
    have hmark : ∀ {k : Kind} {literal : String}, k.literal = some literal →
        (punctuation k position).token = some token → token.Suits previous := fun hk htoken => by
      rw [punctuation, Option.some.injEq] at htoken
      rw [← htoken, Token.ofKind, Token.ofText, hk]
      exact .mark hk
    split at h
    · exact hmark rfl h
    · exact hmark rfl h
    · exact hmark rfl h
    · exact hmark rfl h
    · split at h <;> exact hmark rfl h
    · split at h <;> exact hmark rfl h
    · exact quoted_suits h
    · next hquote => exact word_suits hquote (Bool.eq_false_iff.mpr hblank) h

theorem operand_ne_empty {previous : Option Kind} {position : Nat} {content : List Char}
    (hcontent : content ≠ []) (hkind : (operand previous position content).kind = .searchTerm) :
    (operand previous position content).lexeme ≠ "" := by
  rw [operand] at hkind ⊢
  split
  · next heq => simp [heq] at hkind
  · exact fun hempty => hcontent (String.ofList_eq_empty_iff.mp hempty)

/-- No lexeme stands for an empty term. -/
theorem first_ne_empty {previous : Option Kind} {position : Nat} {c : Char} {cs : List Char}
    {token : Token} (h : (first previous position c cs).token = some token)
    (hkind : token.kind = .searchTerm) : token.lexeme ≠ "" := by
  have hmark : ∀ {k : Kind}, k ≠ .searchTerm →
      (punctuation k position).token = some token → token.lexeme ≠ "" := fun hk htoken => by
    rw [punctuation, Option.some.injEq] at htoken
    rw [← htoken] at hkind
    exact absurd hkind hk
  unfold first at h
  split at h
  · cases h
  · split at h
    · exact hmark (by decide) h
    · exact hmark (by decide) h
    · exact hmark (by decide) h
    · exact hmark (by decide) h
    · split at h <;> exact hmark (by decide) h
    · split at h <;> exact hmark (by decide) h
    · simp only [quoted] at h
      split at h
      · cases h
      · next hblank =>
        obtain rfl := Option.some.inj h
        refine operand_ne_empty (fun hnil => hblank ?_) hkind
        rw [hnil]
        rfl
    · rw [word, Option.some.injEq] at h
      split at h
      · rw [← h] at hkind
        cases hkind
      · split at h
        · rw [← h] at hkind
          cases hkind
        · subst h
          exact operand_ne_empty (List.cons_ne_nil _ _) hkind

end Lexeme

/-! ### Queries -/

/-- The tokens of a text suit each other, whatever comes before. -/
theorem lexemes_suits : ∀ (cs : List Char) (previous : Option Kind) (position skip : Nat),
    Sequence Token.Suits previous ((lexemes previous position skip cs).filterMap Lexeme.token)
  | [], _, _, _ => by rw [lexemes]; trivial
  | _ :: cs, previous, position, skip + 1 => by
      rw [lexemes]
      exact lexemes_suits cs previous position skip
  | c :: cs, previous, position, 0 => by
      simp only [lexemes]
      cases htoken : (Lexeme.first previous position c cs).token with
      | none =>
        rw [List.filterMap_cons_none htoken]
        exact lexemes_suits cs previous _ _
      | some token =>
        rw [List.filterMap_cons_some htoken]
        exact ⟨Lexeme.first_suits htoken, lexemes_suits cs (some token.kind) _ _⟩

theorem tokenize_suits (query : String) : Sequence Token.Suits none (tokenize query) :=
  lexemes_suits query.toList none 0 0

theorem lexemes_ne_empty {token : Token} (hkind : token.kind = .searchTerm) :
    ∀ (cs : List Char) (previous : Option Kind) (position skip : Nat),
      token ∈ (lexemes previous position skip cs).filterMap Lexeme.token → token.lexeme ≠ ""
  | [], _, _, _, hmem => by
      rw [lexemes] at hmem
      cases hmem
  | _ :: cs, previous, position, skip + 1, hmem => by
      rw [lexemes] at hmem
      exact lexemes_ne_empty hkind cs previous position skip hmem
  | c :: cs, previous, position, 0, hmem => by
      obtain ⟨lexeme, hlexeme, htoken⟩ := List.mem_filterMap.mp hmem
      simp only [lexemes, List.mem_cons] at hlexeme
      rcases hlexeme with rfl | hlexeme
      · exact Lexeme.first_ne_empty htoken hkind
      · exact lexemes_ne_empty hkind cs _ _ _ (List.mem_filterMap.mpr ⟨lexeme, hlexeme, htoken⟩)

/-- No term of a query is empty. -/
theorem tokenize_ne_empty {query : String} {token : Token} (hmem : token ∈ tokenize query)
    (hkind : token.kind = .searchTerm) : token.lexeme ≠ "" :=
  lexemes_ne_empty hkind query.toList none 0 0 hmem

end RecordSearch.Query
