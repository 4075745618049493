import RecordSearch.Proofs.Search.Filtering

/-! The text terms of a query, with the scopes at which they are evaluated, and what two comparators
    do for a query if they are related in what they do for these terms, for comparisons and for
    connectives (`evaluate_relates_of_conforms`). -/

namespace RecordSearch.Search

open RecordSearch.Query (Tree Token Nonterminal Grammar)
open RecordSearch.Query.Nonterminal (term group comparison)

/-- A text term of a tree is evaluated at a scope, given the scope of the tree. -/
inductive TermAt (text : Token) (place : Option String) : Tree → Option String → Prop
  | leaf (text_is : text.kind = .searchTerm) : TermAt text place (.leaf text) place
  | group {segment colon : Token} {below : Tree} {scope : Option String}
      (at_below : TermAt text place below (some (extend scope segment.lexeme))) :
      TermAt text place (.node group [.leaf segment, .leaf colon, below]) scope
  | child {label : Nonterminal} {children : List Tree} {child : Tree} {scope : Option String}
      (no_group : label ≠ group) (mem : child ∈ children) (at_child : TermAt text place child scope) :
      TermAt text place (.node label children) scope

section TermAt

variable {text : Token} {place scope : Option String}

theorem termAt_leaf {token : Token} : TermAt text place (.leaf token) scope ↔
    token.kind = .searchTerm ∧ text = token ∧ place = scope := by
  constructor
  · rintro ⟨htext⟩
    exact ⟨htext, rfl, rfl⟩
  · rintro ⟨htext, rfl, rfl⟩
    exact .leaf htext

theorem termAt_group {segment colon : Token} {below : Tree} :
    TermAt text place (.node group [.leaf segment, .leaf colon, below]) scope ↔
      TermAt text place below (some (extend scope segment.lexeme)) := by
  constructor
  · intro h
    cases h with
    | group hbelow => exact hbelow
    | child no_group => exact absurd rfl no_group
  · exact .group

theorem termAt_node {label : Nonterminal} (hlabel : label ≠ group) {children : List Tree} :
    TermAt text place (.node label children) scope ↔
      ∃ child ∈ children, TermAt text place child scope := by
  constructor
  · intro h
    cases h with
    | group => exact absurd rfl hlabel
    | child _ hmem hchild => exact ⟨_, hmem, hchild⟩
  · rintro ⟨child, hmem, hchild⟩
    exact .child hlabel hmem hchild

end TermAt

/-! ### Comparators related at some terms -/

variable {δ δ' : Type}

/-- A relation between what two comparators do to data, for terms without a comparison only at the
    scopes that are told. -/
structure Comparator.RelatesAt (c : Comparator δ) (c' : Comparator δ')
    (told : Token → Option String → Prop) (R : (δ → δ) → (δ' → δ') → Prop) : Prop where
  rest : R id id
  word : ∀ text place, told text place → ∀ exclude,
    R (c.search ⟨place, exclude, none⟩ text) (c'.search ⟨place, exclude, none⟩ text)
  compare : ∀ order place exclude number,
    R (c.search ⟨place, exclude, some order⟩ number) (c'.search ⟨place, exclude, some order⟩ number)
  join : ∀ connective f g f' g', R f f' → R g g' → R (c.join connective f g) (c'.join connective f' g')

variable {c : Comparator δ} {c' : Comparator δ'} {told : Token → Option String → Prop}
  {R : (δ → δ) → (δ' → δ') → Prop}

theorem evaluate_relates_of_compare (h : c.RelatesAt c' told R) {operator : Tree} {operand : Token}
    (hconforms : operator.Conforms Grammar.query)
    (hoperator : operator.symbol = .nonterminal comparison)
    (hoperand : operand.kind = .number ∨ operand.kind = .searchTerm) {scope : Option String}
    (htold : operand.kind = .searchTerm → told operand scope) (exclude : Bool) :
    R (evaluate c ⟨scope, exclude, none⟩ (.node term [operator, .leaf operand]))
      (evaluate c' ⟨scope, exclude, none⟩ (.node term [operator, .leaf operand])) := by
  obtain ⟨children, rfl⟩ := Tree.exists_node_of_symbol hoperator
  cases hconforms.form with
  | only label_is => simp at label_is
  | @operator token token_is =>
    obtain ⟨order, horder⟩ := exists_comparison_of_kind token_is
    rcases hoperand with hnumber | hword
    · rw [evaluate_number horder hnumber, evaluate_number horder hnumber]
      exact h.compare order scope exclude operand
    · rw [evaluate_compared_word horder hword, evaluate_compared_word horder hword]
      exact h.word operand scope (htold hword) exclude

/-- What two comparators do is related for every phrase of a query, under either parity of negations,
    if they are related at each of its text terms. -/
theorem evaluate_relates_of_conforms (h : c.RelatesAt c' told R) {t : Tree}
    (ht : t.Conforms Grammar.query) : ∀ {n : Nonterminal}, t.symbol = .nonterminal n → n ≠ comparison →
      ∀ scope exclude, (∀ text place, TermAt text place t scope → told text place) →
        R (evaluate c ⟨scope, exclude, none⟩ t) (evaluate c' ⟨scope, exclude, none⟩ t) := by
  induction ht with
  | leaf token => intro n hsymbol; cases hsymbol
  | @node label children production conforms ih =>
    intro n hsymbol hcomparison scope exclude htold
    obtain rfl := Query.Symbol.nonterminal.inj hsymbol
    have htold_child : ∀ {child : Tree}, child ∈ children → label ≠ group →
        ∀ text place, TermAt text place child scope → told text place :=
      fun hmem hgroup text place hterm =>
        htold text place ((termAt_node hgroup).mpr ⟨_, hmem, hterm⟩)
    have hchild : ∀ {child : Tree} {m : Nonterminal}, child ∈ children →
        child.symbol = .nonterminal m → m ≠ comparison → label ≠ group → ∀ exclude,
        R (evaluate c ⟨scope, exclude, none⟩ child) (evaluate c' ⟨scope, exclude, none⟩ child) :=
      fun hmem hm hcmp hgroup exclude => ih _ hmem hm hcmp scope exclude (htold_child hmem hgroup)
    cases Tree.form_of_production production with
    | none =>
      rw [evaluate_none, evaluate_none]
      exact h.rest
    | @more first rest first_is rest_is =>
      have hne := isEmpty_of_conforms (conforms first (by simp)) first_is (by decide)
      have hfirst := hchild (by simp) first_is (by decide) (by decide) exclude
      have hrest := hchild (by simp) rest_is (by decide) (by decide) exclude
      rw [evaluate_more hne, evaluate_more hne]
      split
      · exact hfirst
      · exact h.join _ _ _ _ _ hfirst hrest
    | only label_is child_is _ no_comparison =>
      have hlabel : label ≠ group := by rcases label_is with rfl | rfl | rfl <;> decide
      rw [evaluate_only label_is child_is, evaluate_only label_is child_is]
      exact hchild (by simp) child_is no_comparison hlabel exclude
    | and lhs_is rhs_is =>
      have hlhs := hchild (by simp) lhs_is (by decide) (by decide) exclude
      have hrhs := hchild (by simp) rhs_is (by decide) (by decide) exclude
      rw [evaluate_and, evaluate_and]
      exact h.join _ _ _ _ _ hlhs hrhs
    | or lhs_is rhs_is =>
      have hlhs := hchild (by simp) lhs_is (by decide) (by decide) exclude
      have hrhs := hchild (by simp) rhs_is (by decide) (by decide) exclude
      rw [evaluate_or, evaluate_or]
      exact h.join _ _ _ _ _ hlhs hrhs
    | @group segment _ below below_is =>
      have hwithin : Flags.within segment.lexeme ⟨scope, exclude, none⟩ =
          ⟨some (extend scope segment.lexeme), exclude, none⟩ := by cases scope <;> rfl
      rw [evaluate_group, evaluate_group, hwithin]
      exact ih below (by simp) below_is (by decide) _ exclude
        fun text place hterm => htold text place (termAt_group.mpr hterm)
    | exclude mark_is operand_is =>
      rw [evaluate_exclude mark_is operand_is, evaluate_exclude mark_is operand_is]
      exact hchild (by simp) operand_is (by decide) (by decide) (!exclude)
    | @compare operator operand operator_is operand_is =>
      exact evaluate_relates_of_compare h (conforms _ (by simp)) operator_is operand_is
        (fun hword => htold_child (by simp) (by decide) operand scope (.leaf hword)) exclude
    | @word token token_is =>
      rw [evaluate_word token_is, evaluate_word token_is]
      exact h.word token scope
        (htold_child (by simp) (by decide) token scope (.leaf token_is)) exclude
    | parens opening_is inner_is =>
      rw [evaluate_parens opening_is, evaluate_parens opening_is]
      exact hchild (by simp) inner_is (by decide) (by decide) exclude
    | operator => exact absurd rfl hcomparison

end RecordSearch.Search
