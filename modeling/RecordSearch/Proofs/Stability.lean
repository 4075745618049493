import RecordSearch.Proofs.Canonical
import RecordSearch.Proofs.Decimal.Reading
import RecordSearch.Proofs.Lexing.Pieces
import RecordSearch.Proofs.Parsing.Unfinished

/-! Texts of repaired queries. A repaired query is written back with the terms and parentheses that were
    added to it. Empty quotes are read as nothing, so an empty term comes back only if it is missing
    at the end again: a text with parentheses after it is another query, and all others compile to
    the tree that they were written from (`compile_canonical_repaired`). -/

namespace RecordSearch.Query

/-! ### Empty terms -/

/-- No token of a query has an empty text. -/
theorem lexeme_ne_empty {query : String} {token : Token} (hmem : token ∈ tokenize query) :
    token.lexeme ≠ "" := by
  obtain ⟨previous, hsuits⟩ := (tokenize_suits query).exists_of_mem hmem
  cases hsuits with
  | term => exact tokenize_ne_empty hmem rfl
  | @number x position finite =>
    obtain ⟨c, hc, -⟩ := Decimal.exists_digit_query_text finite
    intro (hempty : Decimal.Layout.query.text x = "")
    rw [hempty] at hc
    cases hc
  | @mark k literal position spelled =>
    have hliteral : literal ≠ "" := by cases k <;> cases spelled <;> decide
    exact hliteral

theorem KeptAll.map_lexeme {xs ys : List Token} (h : KeptAll xs ys) :
    ys.map Token.lexeme = xs.map Token.lexeme := by
  induction h with
  | nil => rfl
  | cons hxy _ ih => rw [List.map_cons, List.map_cons, hxy.lexeme_eq, ih]

theorem KeptAll.exists_lexeme {xs ys : List Token} (h : KeptAll xs ys) {y : Token} (hy : y ∈ ys) :
    ∃ x ∈ xs, x.lexeme = y.lexeme :=
  List.mem_map.mp (h.map_lexeme ▸ List.mem_map_of_mem hy)

/-- Tokens that were kept of a query are not empty either. -/
theorem KeptAll.ne_empty {xs ys : List Token} (h : KeptAll xs ys)
    (hxs : ∀ x ∈ xs, x.lexeme ≠ "") : ∀ y ∈ ys, y.lexeme ≠ "" := by
  intro y hy
  obtain ⟨x, hx, hsame⟩ := h.exists_lexeme hy
  exact hsame ▸ hxs x hx

/-- A leaf at the place of a token has its text. -/
theorem Repaired.lexeme_eq {place i : Nat} {xs leaves : List Token} (h : Repaired place xs leaves)
    {x y : Token} (hx : xs[i]? = some x) (hy : leaves[i]? = some y) : y.lexeme = x.lexeme := by
  have hkept : ∀ {xs ys : List Token}, KeptAll xs ys → xs[i]? = some x → ys[i]? = some y →
      y.lexeme = x.lexeme := by
    intro xs ys hkept hx hy
    have heq := congrArg (fun lexemes => lexemes[i]?) hkept.map_lexeme
    simp only [List.getElem?_map, hx, hy, Option.map_some] at heq
    exact Option.some.inj heq
  cases h with
  | @complete ys kept closings =>
    have hlt : i < ys.length := kept.length_eq ▸ (List.getElem?_eq_some_iff.mp hx).1
    rw [List.getElem?_append_left hlt] at hy
    exact hkept kept hx hy
  | @cut k _ kept found =>
    have hlt := (List.getElem?_eq_some_iff.mp hy).1
    rw [← kept.length_eq, List.length_take] at hlt
    have htake : (xs.take k)[i]? = some x := by
      rw [List.getElem?_take_of_lt (by omega), hx]
    exact hkept kept htake hy

/-- What the leaves of a repaired query are like: none of them is empty, or an empty term was added
    and maybe parentheses after it. -/
inductive Filled (place : Nat) : List Token → Prop
  | whole {leaves : List Token} (visible : ∀ token ∈ leaves, token.lexeme ≠ "") : Filled place leaves
  | lacking {t : Token} {ys : List Token} (visible : ∀ token ∈ t :: ys, token.lexeme ≠ "")
      (opened : (lastKind none (t :: ys)).any Kind.leavesOpen = true) (closings : Nat) :
      Filled place (t :: ys ++ added place true closings)

theorem ne_empty_added (place closings : Nat) : ∀ token ∈ added place false closings,
    token.lexeme ≠ "" := by
  intro token hmem
  rw [added, if_neg Bool.false_ne_true, List.nil_append] at hmem
  obtain ⟨i, -, rfl⟩ := List.mem_map.mp hmem
  exact (by decide : ")" ≠ "")

theorem parseRepaired_of_compile {query : String} {t : Tree} (h : compile true query = .ok t) :
    parseRepaired (Text.byteLength query.toList) (tokenize query) = .ok t := by
  rcases parse_of_compile h with ⟨-, hparse⟩ | ⟨hfalse, -⟩
  · exact hparse
  · cases hfalse

theorem exists_compile (query : String) : ∃ t, compile true query = .ok t := by
  obtain ⟨t, hparse, -⟩ :=
    exists_parseRepaired (Text.byteLength query.toList) (tokenize query)
  exact ⟨t, compile_of_parseRepaired hparse⟩

theorem filled_of_compile {query : String} {t : Tree} (h : compile true query = .ok t) :
    Filled (Text.byteLength query.toList) t.leaves := by
  have hrepaired := leaves_of_parseRepaired (parseRepaired_of_compile h)
  generalize t.leaves = leaves at hrepaired
  cases hrepaired with
  | @complete ys kept closings =>
    have hvisible := kept.ne_empty fun _ => lexeme_ne_empty
    cases hopen : (lastKind none ys).any Kind.leavesOpen with
    | false =>
      refine .whole fun token hmem => ?_
      rcases List.mem_append.mp hmem with hmem | hmem
      · exact hvisible token hmem
      · exact ne_empty_added _ closings token hmem
    | true =>
      cases ys with
      | nil => cases hopen
      | cons y ys => exact .lacking hvisible hopen closings
  | cut kept found =>
    exact .whole (kept.ne_empty fun x hx => lexeme_ne_empty (List.mem_of_mem_take hx))

/-! ### Texts of repaired queries -/

/-- The number of a token is read from its text. -/
theorem Token.Suits.readFinite_text {previous : Option Kind} {token : Token}
    (h : token.Suits previous) {x : Float} (hx : token.content = .number x) :
    Decimal.readFinite (Decimal.Layout.query.text x).toList = some x := by
  cases h with
  | term => cases hx
  | number finite => exact Content.number.inj hx ▸ Decimal.readFinite_query_text finite
  | mark => cases hx

theorem lastKind_unplaced : ∀ (previous : Option Kind) (tokens : List Token),
    lastKind previous (tokens.map Token.unplaced) = lastKind previous tokens
  | _, [] => rfl
  | _, token :: tokens => lastKind_unplaced (some token.kind) tokens

theorem added_true (place closings : Nat) : added place true closings =
    .ofText .searchTerm "" place :: added (place + 1) false closings := by
  simp [added]

theorem readable_added : ∀ (closings : Nat) (previous : Option Kind) (place : Nat),
    Sequence Token.Readable previous (added place false closings)
  | 0, _, _ => trivial
  | closings + 1, previous, place => by
      rw [added_succ, sequence_append]
      exact ⟨readable_added closings previous place, .mark rfl, trivial⟩

section Texts

variable {query : String} {t : Tree} (h : compile true query = .ok t)

include h

theorem readable_of_compile {tokens others : List Token} (hleaves : t.leaves = tokens ++ others)
    (hvisible : ∀ token ∈ tokens, token.lexeme ≠ "") : Sequence Token.Readable none tokens := by
  obtain ⟨hderivation, hsuits⟩ := suits_of_compile h
  have hplaced := placed_of_conforms hderivation.conforms hderivation.root none
  have hboth := hsuits.and hplaced
  rw [hleaves] at hboth
  refine (sequence_append.mp hboth).1.imp fun _ token hmem hboth => ?_
  exact readable_of_suits hboth.1 hboth.2 (fun _ => hvisible token hmem)
    fun _ hnumber => hboth.1.readFinite_text hnumber

/-- A repaired query without an empty term is written as a text that compiles to the same tree. -/
theorem compile_canonical_whole (hvisible : ∀ token ∈ t.leaves, token.lexeme ≠ "") :
    ∃ u, compile true t.canonical = .ok u ∧ u.unplaced = t.unplaced := by
  have hreadable := readable_of_compile h (List.append_nil _).symm hvisible
  obtain ⟨u, hu, hsame⟩ := exists_isDerivation_of_unplaced (suits_of_compile h).1
    (tokenize_writeTokens hreadable)
  exact ⟨u, compile_of_parseRepaired (parseRepaired_of_isDerivation hu), hsame⟩

/-- What is read from the text of a query that lacks a term at the end. -/
theorem tokenize_canonical_lacking {place closings : Nat} {y : Token} {ys : List Token}
    (hleaves : t.leaves = y :: ys ++ added place true closings)
    (hvisible : ∀ token ∈ y :: ys, token.lexeme ≠ "") :
    (tokenize t.canonical).map Token.unplaced =
      (y :: ys ++ added (place + 1) false closings).map Token.unplaced := by
  have hreadable := readable_of_compile h hleaves hvisible
  rw [Tree.canonical, hleaves, added_true]
  refine tokenize_writeTokens_empty place ?_
  exact sequence_append.mpr ⟨hreadable, readable_added _ _ _⟩

/-- The empty term is added again if nothing stands after it. -/
theorem compile_canonical_lacking {place : Nat} {y : Token} {ys : List Token}
    (hleaves : t.leaves = y :: ys ++ added place true 0)
    (hvisible : ∀ token ∈ y :: ys, token.lexeme ≠ "")
    (hopened : (lastKind none (y :: ys)).any Kind.leavesOpen = true) :
    ∃ u, compile true t.canonical = .ok u ∧ u.unplaced = t.unplaced := by
  have hread := tokenize_canonical_lacking h hleaves hvisible
  have hnone : added (place + 1) false 0 = [] := rfl
  rw [hnone, List.append_nil] at hread
  have hopened' : (lastKind none (tokenize t.canonical)).any Kind.leavesOpen = true := by
    rw [← lastKind_unplaced, hread, lastKind_unplaced, hopened]
  obtain ⟨u, hu, hsame⟩ : ∃ u, Grammar.query.IsDerivation (tokenize t.canonical ++
      added (Text.byteLength t.canonical.toList) true 0) u ∧ u.unplaced = t.unplaced := by
    refine exists_isDerivation_of_unplaced (suits_of_compile h).1 ?_
    rw [hleaves, List.map_append, List.map_append, hread]
    rfl
  rw [← hopened'] at hu
  exact ⟨u, compile_of_parseRepaired (parseRepaired_of_added hu), hsame⟩

/-- With a parenthesis after it, the parenthesis takes its place. -/
theorem lexemes_canonical_lacking {place closings : Nat} {y : Token} {ys : List Token}
    (hleaves : t.leaves = y :: ys ++ added place true (closings + 1))
    (hvisible : ∀ token ∈ y :: ys, token.lexeme ≠ "") {u : Tree}
    (hu : compile true t.canonical = .ok u) :
    u.leaves.map Token.lexeme ≠ t.leaves.map Token.lexeme := by
  have hread := tokenize_canonical_lacking h hleaves hvisible
  have hrepaired := leaves_of_parseRepaired (parseRepaired_of_compile hu)
  intro heq
  have hempty : (t.leaves.map Token.lexeme)[(y :: ys).length]? = some "" := by
    rw [hleaves, added_true, List.map_append, List.getElem?_append_right (by simp)]
    simp [Token.ofText, Token.lexeme]
  rw [← heq, List.getElem?_map, Option.map_eq_some_iff] at hempty
  obtain ⟨v, hv, hv'⟩ := hempty
  have hclosing : ((tokenize t.canonical).map Token.unplaced)[(y :: ys).length]? =
      some (.ofKind .rparen 0) := by
    rw [hread, List.map_append, List.getElem?_append_right (by simp)]
    simp [added, List.range_succ_eq_map, Token.unplaced, Token.ofKind, Token.ofText]
  rw [List.getElem?_map, Option.map_eq_some_iff] at hclosing
  obtain ⟨x, hx, hx'⟩ := hclosing
  have hlexeme : x.lexeme = ")" := congrArg Token.lexeme hx'
  have hsame := hrepaired.lexeme_eq hx hv
  rw [hv', hlexeme] at hsame
  exact absurd hsame (by decide)

end Texts

/-- Every query is repaired to a tree whose text is repaired to a tree again: to the same one but for
    places if there is no empty term, or only at its end. An empty term before a parenthesis is lost:
    its quotes are read as nothing, and the parenthesis is taken as a term. -/
theorem compile_canonical_repaired (query : String) :
    ∃ t u, compile true query = .ok t ∧ compile true t.canonical = .ok u ∧
      ((∀ token ∈ t.leaves.dropLast, token.lexeme ≠ "") → u.unplaced = t.unplaced) ∧
      ((∃ token ∈ t.leaves.dropLast, token.lexeme = "") →
        u.leaves.map Token.lexeme ≠ t.leaves.map Token.lexeme) := by
  obtain ⟨t, h⟩ := exists_compile query
  obtain ⟨u, hu⟩ := exists_compile t.canonical
  have hfilled := filled_of_compile h
  have hsame : (∃ v, compile true t.canonical = .ok v ∧ v.unplaced = t.unplaced) →
      u.unplaced = t.unplaced := by
    rintro ⟨v, hv, hsame⟩
    rwa [Except.ok.inj (hu.symm.trans hv)]
  refine ⟨t, u, h, hu, ?_⟩
  generalize hleaves : t.leaves = leaves at hfilled
  refine ⟨fun hvisible => ?_, ?_⟩
  · cases hfilled with
    | whole visible => exact hsame (compile_canonical_whole h (hleaves ▸ visible))
    | @lacking y ys visible opened closings =>
      cases closings with
      | zero => exact hsame (compile_canonical_lacking h hleaves visible opened)
      | succ closings =>
        rw [added_succ, ← List.append_assoc, List.dropLast_concat, added_true] at hvisible
        exact absurd rfl (hvisible _ (List.mem_append_right _ List.mem_cons_self))
  · rintro ⟨token, hmem, hempty⟩
    cases hfilled with
    | whole visible => exact absurd hempty (visible token (List.dropLast_subset _ hmem))
    | @lacking y ys visible opened closings =>
      cases closings with
      | zero =>
        have hlast : added (Text.byteLength query.toList) true 0 =
            [.ofText .searchTerm "" (Text.byteLength query.toList)] := rfl
        rw [hlast, List.dropLast_concat] at hmem
        exact absurd hempty (visible token hmem)
      | succ closings =>
        rw [← hleaves]
        exact lexemes_canonical_lacking h hleaves visible hu

/-- The tree that the query `(>` is repaired to. -/
def Tree.missingOperand : Tree :=
  .node .list [
    .node .search [.node .searchType [.node .term [.node .searchTerm [
      .leaf (.ofKind .lparen 0),
      .node .list [
        .node .search [.node .searchType [.node .term [
          .node .comparison [.leaf (.ofKind .gt 1)],
          .leaf (.ofText .searchTerm "" 2)]]],
        .node .list []],
      .leaf (.ofKind .rparen 3)]]]],
    .node .list []]

theorem compile_missingOperand : compile true "(>" = .ok Tree.missingOperand := by
  have hderivation : Grammar.query.IsDerivation
      (tokenize "(>" ++ added 2 ((lastKind none (tokenize "(>")).any Kind.leavesOpen) 1)
      Tree.missingOperand :=
    ⟨rfl, by simp [Tree.missingOperand, Grammar.query, Tree.symbol, Token.ofKind, Token.ofText], rfl⟩
  exact compile_of_parseRepaired (parseRepaired_of_added hderivation)

/-- The text of the repaired query `(>` is `( > "" )`, and this is repaired to another one. -/
theorem compile_canonical_missingOperand :
    compile true "(>" = .ok Tree.missingOperand ∧
      Tree.missingOperand.canonical = "( > \"\" )" ∧
      ∃ u, compile true "( > \"\" )" = .ok u ∧
        u.leaves.map Token.lexeme ≠ Tree.missingOperand.leaves.map Token.lexeme := by
  have hcanonical : Tree.missingOperand.canonical = "( > \"\" )" := by decide +kernel
  obtain ⟨u, hu⟩ := exists_compile Tree.missingOperand.canonical
  refine ⟨compile_missingOperand, hcanonical, u, hcanonical ▸ hu, ?_⟩
  have hleaves : Tree.missingOperand.leaves =
      .ofKind .lparen 0 :: [.ofKind .gt 1] ++ added 2 true (0 + 1) := rfl
  exact lexemes_canonical_lacking compile_missingOperand hleaves (by decide) hu

end RecordSearch.Query
