import RecordSearch.Proofs.Grammar.Derivation

/-! The nodes of a derivation tree of a query, one form for each kind of production. A proof about
    such trees goes by induction on `Conforms` and then by cases on `Form` (`form_of_production`). -/

namespace RecordSearch.Query

namespace Tree

open Nonterminal

/-- The nodes that the productions of the query grammar allow, by label and children. -/
inductive Form : Nonterminal → List Tree → Prop
  | none : Form list []
  | more {first rest : Tree} (first_is : first.symbol = .nonterminal search)
      (rest_is : rest.symbol = .nonterminal list) : Form list [first, rest]
  | only {label below : Nonterminal} {child : Tree}
      (label_is : label = search ∨ label = searchType ∨ label = term)
      (child_is : child.symbol = .nonterminal below) (no_list : below ≠ list)
      (no_comparison : below ≠ comparison) : Form label [child]
  | and {lhs rhs : Tree} {keyword : Token} (lhs_is : lhs.symbol = .nonterminal searchType)
      (rhs_is : rhs.symbol = .nonterminal search) : Form .and [lhs, .leaf keyword, rhs]
  | or {lhs rhs : Tree} {keyword : Token} (lhs_is : lhs.symbol = .nonterminal searchType)
      (rhs_is : rhs.symbol = .nonterminal search) : Form .or [lhs, .leaf keyword, rhs]
  | group {segment colon : Token} {below : Tree} (below_is : below.symbol = .nonterminal term) :
      Form group [.leaf segment, .leaf colon, below]
  | exclude {mark : Token} {operand : Tree} (mark_is : mark.kind = .exclude)
      (operand_is : operand.symbol = .nonterminal searchTerm) : Form term [.leaf mark, operand]
  | compare {operator : Tree} {operand : Token}
      (operator_is : operator.symbol = .nonterminal comparison)
      (operand_is : operand.kind = .number ∨ operand.kind = .searchTerm) :
      Form term [operator, .leaf operand]
  | word {token : Token} (token_is : token.kind = .searchTerm) : Form searchTerm [.leaf token]
  | parens {opening closing : Token} {inner : Tree} (opening_is : opening.kind = .lparen)
      (inner_is : inner.symbol = .nonterminal list) :
      Form searchTerm [.leaf opening, inner, .leaf closing]
  | operator {token : Token} (token_is : token.kind.isComparison = true) :
      Form comparison [.leaf token]

theorem exists_leaf_of_symbol {t : Tree} {k : Kind} (h : t.symbol = .terminal k) :
    ∃ token, t = .leaf token ∧ token.kind = k := by
  cases t with
  | leaf token => exact ⟨token, rfl, Symbol.terminal.inj h⟩
  | node label children => cases h

theorem exists_node_of_symbol {t : Tree} {n : Nonterminal} (h : t.symbol = .nonterminal n) :
    ∃ children, t = .node n children := by
  cases t with
  | leaf token => cases h
  | node label children => exact ⟨children, by rw [Symbol.nonterminal.inj h]⟩

/-- Every node that a production allows has one of the forms. -/
theorem form_of_production {label : Nonterminal} {children : List Tree}
    (h : (⟨label, children.map Tree.symbol⟩ : Production) ∈ Grammar.query.productions) :
    Form label children := by
  simp only [Grammar.query, List.mem_cons, Production.mk.injEq, List.not_mem_nil, or_false,
    List.map_eq_cons_iff, List.map_eq_nil_iff] at h
  rcases h with ⟨rfl, a, _, rfl, ha, b, _, rfl, hb, rfl⟩ | ⟨rfl, rfl⟩ | ⟨rfl, a, _, rfl, ha, rfl⟩ |
    ⟨rfl, a, _, rfl, ha, rfl⟩ | ⟨rfl, a, _, rfl, ha, rfl⟩ |
    ⟨rfl, a, _, rfl, ha, b, _, rfl, hb, c, _, rfl, hc, rfl⟩ |
    ⟨rfl, a, _, rfl, ha, b, _, rfl, hb, c, _, rfl, hc, rfl⟩ | ⟨rfl, a, _, rfl, ha, rfl⟩ |
    ⟨rfl, a, _, rfl, ha, rfl⟩ | ⟨rfl, a, _, rfl, ha, b, _, rfl, hb, c, _, rfl, hc, rfl⟩ |
    ⟨rfl, a, _, rfl, ha, rfl⟩ | ⟨rfl, a, _, rfl, ha, b, _, rfl, hb, rfl⟩ |
    ⟨rfl, a, _, rfl, ha, b, _, rfl, hb, rfl⟩ | ⟨rfl, a, _, rfl, ha, b, _, rfl, hb, rfl⟩ |
    ⟨rfl, a, _, rfl, ha, rfl⟩ | ⟨rfl, a, _, rfl, ha, b, _, rfl, hb, c, _, rfl, hc, rfl⟩ |
    ⟨rfl, a, _, rfl, ha, rfl⟩ | ⟨rfl, a, _, rfl, ha, rfl⟩ | ⟨rfl, a, _, rfl, ha, rfl⟩ |
    ⟨rfl, a, _, rfl, ha, rfl⟩
  · exact .more ha hb
  · exact .none
  · exact .only (by simp) ha (by decide) (by decide)
  · exact .only (by simp) ha (by decide) (by decide)
  · exact .only (by simp) ha (by decide) (by decide)
  · obtain ⟨_, rfl, -⟩ := exists_leaf_of_symbol hb
    exact .and ha hc
  · obtain ⟨_, rfl, -⟩ := exists_leaf_of_symbol hb
    exact .or ha hc
  · exact .only (by simp) ha (by decide) (by decide)
  · exact .only (by simp) ha (by decide) (by decide)
  · obtain ⟨_, rfl, -⟩ := exists_leaf_of_symbol ha
    obtain ⟨_, rfl, -⟩ := exists_leaf_of_symbol hb
    exact .group hc
  · exact .only (by simp) ha (by decide) (by decide)
  · obtain ⟨_, rfl, hmark⟩ := exists_leaf_of_symbol ha
    exact .exclude hmark hb
  · obtain ⟨_, rfl, hoperand⟩ := exists_leaf_of_symbol hb
    exact .compare ha (Or.inl hoperand)
  · obtain ⟨_, rfl, hoperand⟩ := exists_leaf_of_symbol hb
    exact .compare ha (Or.inr hoperand)
  · obtain ⟨_, rfl, htoken⟩ := exists_leaf_of_symbol ha
    exact .word htoken
  · obtain ⟨_, rfl, hopening⟩ := exists_leaf_of_symbol ha
    obtain ⟨_, rfl, -⟩ := exists_leaf_of_symbol hc
    exact .parens hopening hb
  all_goals
    obtain ⟨_, rfl, htoken⟩ := exists_leaf_of_symbol ha
    exact .operator (by rw [htoken]; rfl)

/-- Every inner node of a derivation tree has one of the forms. -/
theorem Conforms.form {label : Nonterminal} {children : List Tree}
    (h : (Tree.node label children).Conforms Grammar.query) : Form label children := by
  cases h with
  | node production _ => exact form_of_production production

/-- The tree of the query `!(n:>5)`. -/
def atMostFive : Tree :=
  .node list [
    .node search [.node searchType [.node term [
      .leaf (.ofKind .exclude 0),
      .node searchTerm [
        .leaf (.ofKind .lparen 1),
        .node list [
          .node search [.node searchType [.node group [
            .leaf (.ofText .searchTerm "n" 2),
            .leaf (.ofKind .groupTerminator 3),
            .node term [
              .node comparison [.leaf (.ofKind .gt 4)],
              .leaf ⟨.number, .number 5, 5⟩]]]],
          .node list []],
        .leaf (.ofKind .rparen 6)]]]],
    .node list []]

theorem isDerivation_atMostFive :
    Grammar.query.IsDerivation atMostFive.leaves atMostFive where
  root := rfl
  conforms := by simp [atMostFive, Grammar.query, Tree.symbol, Token.ofKind, Token.ofText]
  leaves := rfl

end Tree

end RecordSearch.Query
