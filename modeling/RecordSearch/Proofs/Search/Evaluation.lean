import Mathlib.Data.List.Forall2
import RecordSearch.Proofs.Grammar.Forms
import RecordSearch.Search.Evaluate

/-! What the evaluator does, whatever the comparator is: with each form of node, and, for trees of any
    form, what two comparators do that are related in all they do (`evaluate_relates`), and what is
    kept because a comparator keeps it (`evaluate_keeps`). -/

namespace RecordSearch.Search

open RecordSearch.Query (Tree Token Nonterminal)
open RecordSearch.Query.Nonterminal

variable {δ : Type} {c : Comparator δ} {flags : Flags}

theorem isToken_of_symbol {t : Tree} {n : Nonterminal} (h : t.symbol = .nonterminal n)
    (k : Query.Kind) : t.isToken k = false := by
  obtain ⟨children, rfl⟩ := Tree.exists_node_of_symbol h
  rfl

theorem isToken_leaf (token : Token) (k : Query.Kind) :
    (Tree.leaf token).isToken k = decide (token.kind = k) := rfl

/-! ### One step of the evaluator -/

theorem evaluateItems_cons {t : Tree} {ts : List Tree} : evaluateItems c flags (t :: ts) =
    if t.isEmpty then evaluateItems c flags ts
    else evaluate c flags t :: evaluateItems c flags ts := rfl

theorem evaluateWrapper_cons {child : Tree} {rest : List Tree} :
    evaluateWrapper c flags (child :: rest) =
      if child.isToken .lparen then evaluateHead c flags rest else evaluate c flags child := rfl

theorem evaluateTerm_cons {first : Tree} {rest : List Tree} :
    evaluateTerm c flags (first :: rest) =
      if first.isToken .exclude then evaluateWrapper c flags.negated rest
      else if first.label? = some .comparison ∧ !rest.isEmpty then
        evaluateOperand c flags (comparisonOf first) rest
      else if first.isToken .lparen then evaluateHead c flags rest
      else evaluate c flags first := rfl

/-! ### Lists and connectives -/

theorem evaluate_none : evaluate c flags (.node list []) = id := rfl

/-- The items of a list are joined one by one; an empty rest is left out. -/
theorem evaluate_more {first rest : Tree} (hfirst : first.isEmpty = false) :
    evaluate c flags (.node list [first, rest]) =
      if rest.isEmpty then evaluate c flags first
      else c.join (Connective.and.under flags.exclude) (evaluate c flags first)
        (evaluate c flags rest) := by
  have hlist : evaluate c flags (.node list [first, rest]) =
      conjoin c flags (evaluateItems c flags [first, rest]) := rfl
  have hend : evaluateItems c flags [] = [] := rfl
  rw [hlist, evaluateItems_cons, evaluateItems_cons, hfirst, hend]
  cases rest.isEmpty <;> rfl

theorem evaluate_and {lhs rhs : Tree} {keyword : Token} :
    evaluate c flags (.node .and [lhs, .leaf keyword, rhs]) =
      c.join (Connective.and.under flags.exclude) (evaluate c flags lhs)
        (evaluate c flags rhs) := rfl

theorem evaluate_or {lhs rhs : Tree} {keyword : Token} :
    evaluate c flags (.node .or [lhs, .leaf keyword, rhs]) =
      c.join (Connective.or.under flags.exclude) (evaluate c flags lhs)
        (evaluate c flags rhs) := rfl

/-! ### Terms -/

theorem evaluate_term {children : List Tree} :
    evaluate c flags (.node term children) = evaluateTerm c flags children := rfl

theorem evaluate_searchTerm {children : List Tree} :
    evaluate c flags (.node searchTerm children) = evaluateWrapper c flags children := rfl

/-- A node around a single one does what that does. -/
theorem evaluate_only {label below : Nonterminal} {child : Tree}
    (hlabel : label = search ∨ label = searchType ∨ label = term)
    (hchild : child.symbol = .nonterminal below) :
    evaluate c flags (.node label [child]) = evaluate c flags child := by
  have htoken := isToken_of_symbol hchild
  have hwrapper : evaluateWrapper c flags [child] = evaluate c flags child := by
    simp [evaluateWrapper_cons, htoken]
  rcases hlabel with rfl | rfl | rfl
  · exact hwrapper
  · exact hwrapper
  · simp [evaluate_term, evaluateTerm_cons, htoken]

theorem evaluate_group {segment colon : Token} {below : Tree} :
    evaluate c flags (.node group [.leaf segment, .leaf colon, below]) =
      evaluate c (flags.within segment.lexeme) below := rfl

theorem evaluate_exclude {mark : Token} {operand : Tree} (hmark : mark.kind = .exclude)
    (hoperand : operand.symbol = .nonterminal searchTerm) :
    evaluate c flags (.node term [.leaf mark, operand]) = evaluate c flags.negated operand := by
  have hexclude : (Tree.leaf mark).isToken .exclude = true := decide_eq_true hmark
  have hparen := isToken_of_symbol hoperand .lparen
  simp [evaluate_term, evaluateTerm_cons, evaluateWrapper_cons, hexclude, hparen]

theorem evaluate_leaf_searchTerm {token : Token} (htoken : token.kind = .searchTerm) :
    evaluate c flags (.leaf token) = c.search flags token := by
  obtain ⟨kind, content, position⟩ := token
  obtain rfl : kind = .searchTerm := htoken
  rfl

theorem evaluate_leaf_number {token : Token} (htoken : token.kind = .number) :
    evaluate c flags (.leaf token) = c.search flags token := by
  obtain ⟨kind, content, position⟩ := token
  obtain rfl : kind = .number := htoken
  rfl

theorem evaluate_word {token : Token} (htoken : token.kind = .searchTerm) :
    evaluate c flags (.node searchTerm [.leaf token]) = c.search flags token := by
  simp [evaluate_searchTerm, evaluateWrapper_cons, evaluate_leaf_searchTerm htoken,
    isToken_leaf, htoken]

theorem evaluate_parens {opening closing : Token} {inner : Tree}
    (hopening : opening.kind = .lparen) :
    evaluate c flags (.node searchTerm [.leaf opening, inner, .leaf closing]) =
      evaluate c flags inner := by
  have hhead : evaluateHead c flags [inner, .leaf closing] = evaluate c flags inner := rfl
  simp [evaluate_searchTerm, evaluateWrapper_cons, isToken_leaf, hopening, hhead]

/-- After a comparison an operand is evaluated, and compared if it is a number. -/
theorem evaluate_compared {operator operand : Token} {order : Comparison}
    (horder : Comparison.ofKind operator.kind = some order) :
    evaluate c flags (.node term [.node comparison [.leaf operator], .leaf operand]) =
      evaluate c (if (Tree.leaf operand).isToken .number then flags.comparing order else flags)
        (.leaf operand) := by
  have hcomparison : comparisonOf (.node comparison [.leaf operator]) = some order := horder
  have hoperand : evaluateOperand c flags (some order) [.leaf operand] =
      evaluate c (if (Tree.leaf operand).isToken .number then flags.comparing order else flags)
        (.leaf operand) := rfl
  rw [evaluate_term, evaluateTerm_cons, hcomparison, hoperand]
  rfl

/-- A comparison applies to a number after it. -/
theorem evaluate_number {operator operand : Token} {order : Comparison}
    (horder : Comparison.ofKind operator.kind = some order) (hoperand : operand.kind = .number) :
    evaluate c flags (.node term [.node comparison [.leaf operator], .leaf operand]) =
      c.search (flags.comparing order) operand := by
  have hnumber : (Tree.leaf operand).isToken .number = true := decide_eq_true hoperand
  rw [evaluate_compared horder, hnumber, if_pos rfl, evaluate_leaf_number hoperand]

/-- A comparison does not matter to any other term after it. -/
theorem evaluate_compared_word {operator operand : Token} {order : Comparison}
    (horder : Comparison.ofKind operator.kind = some order) (hoperand : operand.kind = .searchTerm) :
    evaluate c flags (.node term [.node comparison [.leaf operator], .leaf operand]) =
      c.search flags operand := by
  have hnumber : (Tree.leaf operand).isToken .number = false := by
    simp [isToken_leaf, hoperand]
  rw [evaluate_compared horder, hnumber, if_neg Bool.false_ne_true,
    evaluate_leaf_searchTerm hoperand]

/-! ### Trees of any form -/

/-- A relation between what one comparator does to data and what another does. -/
structure Comparator.Relates {δ' : Type} (c : Comparator δ) (c' : Comparator δ')
    (R : (δ → δ) → (δ' → δ') → Prop) : Prop where
  rest : R id id
  clear : R c.clear c'.clear
  search : ∀ flags token, R (c.search flags token) (c'.search flags token)
  join : ∀ connective f g f' g', R f f' → R g g' → R (c.join connective f g) (c'.join connective f' g')

/-- What two trees do is related, and a node that they stand in sees no difference between them. -/
structure Alike {δ' : Type} (c : Comparator δ) (c' : Comparator δ') (R : (δ → δ) → (δ' → δ') → Prop)
    (t t' : Tree) : Prop where
  relates : ∀ flags, R (evaluate c flags t) (evaluate c' flags t')
  isEmpty_eq : t.isEmpty = t'.isEmpty
  token_eq : t.token? = t'.token?
  label_eq : t.label? = t'.label?
  comparison_eq : comparisonOf t = comparisonOf t'

section Relates

variable {δ' : Type} {c' : Comparator δ'} {R : (δ → δ) → (δ' → δ') → Prop} (h : c.Relates c' R)
  {t t' : Tree} {ts ts' : List Tree} (hts : List.Forall₂ (Alike c c' R) ts ts') (flags : Flags)

theorem Alike.isToken_eq (h : Alike c c' R t t') (k : Query.Kind) : t.isToken k = t'.isToken k := by
  rw [Tree.isToken, Tree.isToken, h.token_eq]

theorem Alike.self (h : ∀ flags, R (evaluate c flags t) (evaluate c' flags t)) : Alike c c' R t t :=
  ⟨h, rfl, rfl, rfl, rfl⟩

include h

theorem conjoin_relates {fs : List (δ → δ)} {fs' : List (δ' → δ')} (hfs : List.Forall₂ R fs fs') :
    R (conjoin c flags fs) (conjoin c' flags fs') := by
  induction hfs with
  | nil => exact h.rest
  | cons hf hfs ih =>
    cases hfs with
    | nil => exact hf
    | cons => exact h.join _ _ _ _ _ hf ih

include hts

omit h in
theorem evaluateItems_relates :
    List.Forall₂ R (evaluateItems c flags ts) (evaluateItems c' flags ts') := by
  induction hts with
  | nil => exact .nil
  | cons halike _ ih =>
    rw [evaluateItems_cons, evaluateItems_cons, halike.isEmpty_eq]
    split
    · exact ih
    · exact .cons (halike.relates flags) ih

theorem evaluateConnective_relates (connective : Connective) :
    R (evaluateConnective c flags connective ts) (evaluateConnective c' flags connective ts') := by
  rcases hts with _ | ⟨hlhs, _ | ⟨_, _ | ⟨hrhs, _ | _⟩⟩⟩
  case cons.cons.cons.nil => exact h.join _ _ _ _ _ (hlhs.relates flags) (hrhs.relates flags)
  all_goals exact h.rest

theorem evaluateGroup_relates : R (evaluateGroup c flags ts) (evaluateGroup c' flags ts') := by
  cases hts with
  | nil => exact h.rest
  | @cons segment segment' _ _ hsegment hrest =>
    have htoken := hsegment.token_eq
    cases segment with
    | node _ _ => cases segment' with
      | node _ _ => exact h.rest
      | leaf _ => cases htoken
    | leaf token => cases segment' with
      | node _ _ => cases htoken
      | leaf token' =>
        obtain rfl : token = token' := Option.some.inj htoken
        rcases hrest with _ | ⟨_, _ | ⟨hterm, _ | _⟩⟩
        case cons.cons.nil => exact hterm.relates _
        all_goals exact h.rest

theorem evaluateHead_relates : R (evaluateHead c flags ts) (evaluateHead c' flags ts') := by
  cases hts with
  | nil => exact h.rest
  | cons hchild _ => exact hchild.relates flags

theorem evaluateWrapper_relates :
    R (evaluateWrapper c flags ts) (evaluateWrapper c' flags ts') := by
  cases hts with
  | nil => exact h.rest
  | cons hchild hrest =>
    rw [evaluateWrapper_cons, evaluateWrapper_cons, hchild.isToken_eq]
    split
    · exact evaluateHead_relates h hrest flags
    · exact hchild.relates flags

theorem evaluateOperand_relates (comparison : Option Comparison) :
    R (evaluateOperand c flags comparison ts) (evaluateOperand c' flags comparison ts') := by
  cases hts with
  | nil => exact h.rest
  | cons hoperand _ =>
    cases comparison with
    | none => exact hoperand.relates flags
    | some op =>
      simp only [evaluateOperand, hoperand.isToken_eq]
      exact hoperand.relates _

theorem evaluateTerm_relates : R (evaluateTerm c flags ts) (evaluateTerm c' flags ts') := by
  cases hts with
  | nil => exact h.rest
  | @cons _ _ rest rest' hfirst hrest =>
    have hempty : rest.isEmpty = rest'.isEmpty := by cases hrest <;> rfl
    rw [evaluateTerm_cons, evaluateTerm_cons, hfirst.isToken_eq, hfirst.isToken_eq, hfirst.label_eq,
      hfirst.comparison_eq, hempty]
    split
    · exact evaluateWrapper_relates h hrest flags.negated
    · split
      · exact evaluateOperand_relates h hrest flags _
      · split
        · exact evaluateHead_relates h hrest flags
        · exact hfirst.relates flags

theorem evaluate_node_relates (label : Nonterminal) :
    R (evaluate c flags (.node label ts)) (evaluate c' flags (.node label ts')) := by
  unfold evaluate
  cases label with
  | list => exact conjoin_relates h flags (evaluateItems_relates hts flags)
  | and => exact evaluateConnective_relates h hts flags .and
  | or => exact evaluateConnective_relates h hts flags .or
  | group => exact evaluateGroup_relates h hts flags
  | term => exact evaluateTerm_relates h hts flags
  | search | searchType | searchTerm | comparison => exact evaluateWrapper_relates h hts flags

end Relates

mutual

/-- What two comparators do is related for every tree, if it is for terms and connectives. -/
theorem evaluate_relates {δ' : Type} {c : Comparator δ} {c' : Comparator δ'}
    {R : (δ → δ) → (δ' → δ') → Prop} (h : c.Relates c' R) :
    ∀ (t : Tree) (flags : Flags), R (evaluate c flags t) (evaluate c' flags t)
  | .leaf token, flags => by
      unfold evaluate
      split
      · exact h.search flags token
      · exact h.search flags token
      · exact h.clear
  | .node label children, flags => evaluate_node_relates h (forall₂_alike h children) flags label

theorem forall₂_alike {δ' : Type} {c : Comparator δ} {c' : Comparator δ'}
    {R : (δ → δ) → (δ' → δ') → Prop} (h : c.Relates c' R) :
    ∀ ts : List Tree, List.Forall₂ (Alike c c' R) ts ts
  | [] => .nil
  | t :: ts => .cons (.self (evaluate_relates h t)) (forall₂_alike h ts)

end

/-- A property of everything that a comparator does to data, and of leaving data alone. -/
structure Comparator.Keeps (c : Comparator δ) (P : (δ → δ) → Prop) : Prop where
  rest : P id
  clear : P c.clear
  search : ∀ flags token, P (c.search flags token)
  join : ∀ connective f g, P f → P g → P (c.join connective f g)

theorem Comparator.Keeps.relates {P : (δ → δ) → Prop} (h : c.Keeps P) :
    c.Relates c fun f _ => P f where
  rest := h.rest
  clear := h.clear
  search := h.search
  join connective f g _ _ := h.join connective f g

/-- What a comparator always keeps, every tree keeps. -/
theorem evaluate_keeps {P : (δ → δ) → Prop} (h : c.Keeps P) (t : Tree) (flags : Flags) :
    P (evaluate c flags t) := evaluate_relates h.relates t flags

end RecordSearch.Search
