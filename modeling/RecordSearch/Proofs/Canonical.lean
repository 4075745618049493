import RecordSearch.Proofs.Lexing.Written
import RecordSearch.Proofs.Parsing.Leaves
import RecordSearch.Proofs.Parsing.Strict

/-! Canonical text is faithful. The leaves of a compiled query suit each other and its numbers stand
    after comparisons, so written out they are read back as the same tokens; these are a sentence with
    one derivation tree, which is the same tree but for places (`compile_canonical`). -/

namespace RecordSearch.Query

namespace Tree

mutual

/-- A tree with the places of its tokens forgotten. -/
def unplaced : Tree → Tree
  | leaf token => leaf token.unplaced
  | node label children => node label (unplacedOf children)

/-- Several trees with the places of their tokens forgotten. -/
def unplacedOf : List Tree → List Tree
  | [] => []
  | t :: ts => t.unplaced :: unplacedOf ts

end

theorem unplacedOf_eq_map : ∀ ts : List Tree, unplacedOf ts = ts.map unplaced
  | [] => by simp only [unplacedOf, List.map_nil]
  | t :: ts => by simp only [unplacedOf, List.map_cons, unplacedOf_eq_map ts]

theorem symbol_unplaced (t : Tree) : t.unplaced.symbol = t.symbol := by
  cases t <;> simp only [unplaced, symbol, Token.unplaced]

theorem map_symbol_unplacedOf (ts : List Tree) :
    (unplacedOf ts).map symbol = ts.map symbol := by
  rw [unplacedOf_eq_map, List.map_map]
  exact List.map_congr_left fun t _ => symbol_unplaced t

theorem Conforms.unplaced {g : Grammar} {t : Tree} (h : t.Conforms g) : t.unplaced.Conforms g := by
  induction h with
  | leaf token => rw [Tree.unplaced]; exact .leaf _
  | node production _ ih =>
    rw [Tree.unplaced]
    refine .node (by rwa [map_symbol_unplacedOf]) fun t ht => ?_
    rw [unplacedOf_eq_map] at ht
    obtain ⟨u, hu, rfl⟩ := List.mem_map.mp ht
    exact ih u hu

mutual

theorem leaves_unplaced : ∀ t : Tree, t.unplaced.leaves = t.leaves.map Token.unplaced
  | leaf token => by simp only [unplaced, leaves_leaf, List.map_cons, List.map_nil]
  | node label children => by
      rw [unplaced, leaves_node, leaves_node, leavesOf_unplacedOf children]

theorem leavesOf_unplacedOf : ∀ ts : List Tree,
    leavesOf (unplacedOf ts) = (leavesOf ts).map Token.unplaced
  | [] => by simp only [unplacedOf, leavesOf_nil, List.map_nil]
  | t :: ts => by
      rw [unplacedOf, leavesOf_cons, leavesOf_cons, List.map_append, leaves_unplaced t,
        leavesOf_unplacedOf ts]

end

end Tree

theorem Grammar.IsDerivation.unplaced {g : Grammar} {tokens : List Token} {t : Tree}
    (h : g.IsDerivation tokens t) : g.IsDerivation (tokens.map Token.unplaced) t.unplaced where
  root := t.symbol_unplaced.trans h.root
  conforms := h.conforms.unplaced
  leaves := by rw [t.leaves_unplaced, h.leaves]

/-! ### Compiled queries -/

theorem parse_of_compile {recovery : Bool} {query : String} {t : Tree}
    (h : compile recovery query = .ok t) :
    recovery = true ∧ parseRepaired (Text.byteLength query.toList) (tokenize query) = .ok t ∨
      recovery = false ∧ parseStrict (tokenize query) = .ok t := by
  have hok : ∀ {r : Except ParseError Tree} {f : ParseError → QueryError},
      r.mapError f = .ok t → r = .ok t := fun {r} _ hr => by
    cases r with
    | ok u => exact congrArg Except.ok (Except.ok.inj hr)
    | error e => cases hr
  cases recovery with
  | true =>
    simp only [compile, if_true] at h
    exact Or.inl ⟨rfl, hok h⟩
  | false =>
    simp only [compile, Bool.false_eq_true, if_false] at h
    exact Or.inr ⟨rfl, hok h⟩

theorem compile_of_parseStrict {query : String} {t : Tree}
    (h : parseStrict (tokenize query) = .ok t) : compile false query = .ok t := by
  simp only [compile, Bool.false_eq_true, if_false, h]
  rfl

/-- A compiled query is a derivation tree whose leaves suit each other. -/
theorem suits_of_compile {recovery : Bool} {query : String} {t : Tree}
    (h : compile recovery query = .ok t) :
    Grammar.query.IsDerivation t.leaves t ∧ Sequence Token.Suits none t.leaves := by
  rcases parse_of_compile h with ⟨-, hparse⟩ | ⟨-, hparse⟩
  · obtain ⟨u, hu, hderivation⟩ :=
      exists_parseRepaired (Text.byteLength query.toList) (tokenize query)
    obtain rfl : u = t := Except.ok.inj (hu.symm.trans hparse)
    exact ⟨hderivation, suits_of_parseRepaired (tokenize_suits query) hparse⟩
  · have hderivation := isDerivation_of_parseStrict hparse
    have hleaves := hderivation.leaves
    exact ⟨hleaves ▸ hderivation, hleaves ▸ tokenize_suits query⟩

/-- Leaves that suit each other can be read back if no term is empty and numbers read as
    themselves. -/
theorem readable_of_suits {previous : Option Kind} {token : Token} (hsuits : token.Suits previous)
    (hplaced : token.Placed previous) (hterm : token.kind = .searchTerm → token.lexeme ≠ "")
    (hnumber : ∀ x, token.content = .number x →
      Decimal.readFinite (Decimal.Layout.query.text x).toList = some x) :
    token.Readable previous := by
  cases hsuits with
  | term unquoted visible wordy =>
    refine .term unquoted (Bool.eq_false_iff.mpr fun hblank => ?_) wordy
    exact hterm rfl (visible hblank)
  | number finite => exact .number (hplaced rfl) (hnumber _ rfl)
  | mark spelled => exact .mark spelled

/-- Tokens that are the leaves of a derivation tree, places apart, have this tree. -/
theorem exists_isDerivation_of_unplaced {tokens : List Token} {t : Tree}
    (ht : Grammar.query.IsDerivation t.leaves t)
    (htokens : tokens.map Token.unplaced = t.leaves.map Token.unplaced) :
    ∃ u, Grammar.query.IsDerivation tokens u ∧ u.unplaced = t.unplaced := by
  -- the same kinds are a sentence again, so there is a tree, and places apart it is this one
  have hkinds : tokens.map Token.kind = t.leaves.map Token.kind := by
    have hkind := congrArg (List.map Token.kind) htokens
    rw [List.map_map, List.map_map] at hkind
    exact hkind
  have hsentence : Grammar.query.IsSentence (tokens.map Token.kind) := by
    rw [hkinds, Grammar.isSentence_iff]
    exact ⟨t, ht⟩
  obtain ⟨u, hu⟩ := Grammar.isSentence_iff.mp hsentence
  refine ⟨u, hu, ?_⟩
  refine Configuration.isDerivation_unique Table.automaton_query hu.unplaced ?_
  rw [htokens]
  exact ht.unplaced

/-- A text that is cut into the leaves of a derivation tree, places apart, compiles to this tree. -/
theorem compile_of_leaves {query : String} {t : Tree} (ht : Grammar.query.IsDerivation t.leaves t)
    (htokens : (tokenize query).map Token.unplaced = t.leaves.map Token.unplaced) :
    ∃ u, compile false query = .ok u ∧ u.unplaced = t.unplaced := by
  obtain ⟨u, hu, hsame⟩ := exists_isDerivation_of_unplaced ht htokens
  exact ⟨u, compile_of_parseStrict (parseStrict_of_isDerivation hu), hsame⟩

/-- A query without empty terms, compiled with or without recovery, is written as a text that
    compiles to the same tree but for places. Its numbers are taken to read as themselves. -/
theorem compile_canonical {recovery : Bool} {query : String} {t : Tree}
    (h : compile recovery query = .ok t)
    (hterms : ∀ token ∈ t.leaves, token.kind = .searchTerm → token.lexeme ≠ "")
    (hnumbers : ∀ token ∈ t.leaves, ∀ x, token.content = .number x →
      Decimal.readFinite (Decimal.Layout.query.text x).toList = some x) :
    ∃ u, compile false t.canonical = .ok u ∧ u.unplaced = t.unplaced := by
  obtain ⟨hderivation, hsuits⟩ := suits_of_compile h
  have hplaced := placed_of_conforms hderivation.conforms hderivation.root none
  have hreadable : Sequence Token.Readable none t.leaves :=
    (hsuits.and hplaced).imp fun _ token hmem hboth =>
      readable_of_suits hboth.1 hboth.2 (hterms token hmem) (hnumbers token hmem)
  exact compile_of_leaves hderivation (tokenize_writeTokens hreadable)

theorem compile_atMostFive : compile false "!(n:>5)" = .ok Tree.atMostFive := by
  have htokens : tokenize "!(n:>5)" = Tree.atMostFive.leaves := rfl
  refine compile_of_parseStrict ?_
  rw [htokens]
  exact parseStrict_of_isDerivation Tree.isDerivation_atMostFive

theorem compile_canonical_atMostFive :
    ∃ u, compile false Tree.atMostFive.canonical = .ok u ∧
      u.unplaced = Tree.atMostFive.unplaced := by
  have hfive : Decimal.readFinite (Decimal.Layout.query.text 5).toList = some 5 := by
    decide +kernel
  refine compile_canonical compile_atMostFive ?_ ?_
  · simp [Tree.atMostFive, Token.ofKind, Token.ofText, Token.lexeme]
  · simp [Tree.atMostFive, Token.ofKind, Token.ofText, hfive]

end RecordSearch.Query
