import RecordSearch.Proofs.Decimal.Layout
import RecordSearch.Proofs.Grammar.Forms
import RecordSearch.Proofs.Text.Containment
import RecordSearch.Search.Evaluate

/-! The plain meaning of queries. `satisfies` says of one record whether it satisfies a parse tree at
    a scope, by truth values alone: a negation is a complement, a list and `AND` are conjunctions,
    `OR` is a disjunction. Nothing is pushed down and no records are put aside. A test that is made
    ready for a term agrees with it, which takes that the text of a number is never found in a truth
    value. -/

namespace RecordSearch.Search

open RecordSearch.Query (Tree Token Kind)

/-- Whether what a scope leads to passes a test, or without a scope one of the immediate fields. -/
def atScope (test : Record → Bool) (scope : Option String) (record : Record) : Bool :=
  match scope with
  | some path => (resolve record path).any test
  | none => (fieldValues record).any test

/-- Whether the text of a value contains a text, letter case aside. -/
def mentions (text : String) (value : Record) : Bool :=
  (atomicText value).any fun t => decide (Text.lower text.toList <:+: Text.lower t.toList)

/-- Whether a value is a number, or a text that reads as one, and stands in the ordering. -/
def stands (order : Comparison) (amount : Float) : Record → Bool
  | .number n => order.holds n.toFloat amount
  | .string s => (Decimal.readFinite (Text.trim s.toList)).any fun x => order.holds x amount
  | _ => false

/-- Whether a value passes a comparison. Only numbers are compared; any other operand is looked for
    as if it stood alone. -/
def passes (operator operand : Token) : Record → Bool :=
  match operand.kind, Comparison.ofKind operator.kind, operand.number with
  | .number, some order, some amount => stands order amount
  | _, _, _ => mentions operand.lexeme

/-- The scope of what follows a segment. -/
def extend (scope : Option String) (segment : String) : String :=
  match scope with
  | some parent => parent ++ "." ++ segment
  | none => segment

/-- Whether a record satisfies a parse tree at a scope. -/
def satisfies : Tree → Option String → Record → Bool
  | .leaf term, scope, record => atScope (mentions term.lexeme) scope record
  | .node .list [], _, _ => true
  | .node .list [first, rest], scope, record =>
    satisfies first scope record && satisfies rest scope record
  | .node .and [lhs, _, rhs], scope, record =>
    satisfies lhs scope record && satisfies rhs scope record
  | .node .or [lhs, _, rhs], scope, record =>
    satisfies lhs scope record || satisfies rhs scope record
  | .node .group [.leaf segment, _, term], scope, record =>
    satisfies term (some (extend scope segment.lexeme)) record
  | .node .term [.leaf _, operand], scope, record => !satisfies operand scope record
  | .node .term [.node _ [.leaf operator], .leaf operand], scope, record =>
    atScope (passes operator operand) scope record
  | .node .searchTerm [_, inner, _], scope, record => satisfies inner scope record
  | .node _ [child], scope, record => satisfies child scope record
  | _, _, _ => false

/-! ### Meanings of nodes -/

section Nodes

open RecordSearch.Query.Nonterminal

variable {scope : Option String}

theorem satisfies_none : satisfies (.node list []) scope = fun _ => true := rfl

theorem satisfies_more {first rest : Tree} : satisfies (.node list [first, rest]) scope =
    fun record => satisfies first scope record && satisfies rest scope record := rfl

theorem satisfies_and {lhs keyword rhs : Tree} : satisfies (.node .and [lhs, keyword, rhs]) scope =
    fun record => satisfies lhs scope record && satisfies rhs scope record := rfl

theorem satisfies_or {lhs keyword rhs : Tree} : satisfies (.node .or [lhs, keyword, rhs]) scope =
    fun record => satisfies lhs scope record || satisfies rhs scope record := rfl

theorem satisfies_only {label below : Query.Nonterminal} {child : Tree}
    (hlabel : label = search ∨ label = searchType ∨ label = term)
    (hchild : child.symbol = .nonterminal below) :
    satisfies (.node label [child]) scope = satisfies child scope := by
  obtain ⟨_, rfl⟩ := Tree.exists_node_of_symbol hchild
  funext record
  rcases hlabel with rfl | rfl | rfl <;> simp only [satisfies]

theorem satisfies_group {segment : Token} {colon below : Tree} :
    satisfies (.node group [.leaf segment, colon, below]) scope =
      satisfies below (some (extend scope segment.lexeme)) := rfl

theorem satisfies_exclude {mark : Token} {operand : Tree} :
    satisfies (.node term [.leaf mark, operand]) scope =
      fun record => !satisfies operand scope record := rfl

theorem satisfies_compare {label : Query.Nonterminal} {operator operand : Token} :
    satisfies (.node term [.node label [.leaf operator], .leaf operand]) scope =
      atScope (passes operator operand) scope := rfl

theorem satisfies_word {token : Token} : satisfies (.node searchTerm [.leaf token]) scope =
    atScope (mentions token.lexeme) scope := rfl

theorem satisfies_parens {opening inner closing : Tree} :
    satisfies (.node searchTerm [opening, inner, closing]) scope = satisfies inner scope := rfl

end Nodes

/-! ### Trees with a plain meaning -/

/-- One tree stands somewhere in another. -/
inductive Occurs (s : Tree) : Tree → Prop
  | here : Occurs s s
  | inside {label : Query.Nonterminal} {children : List Tree} {child : Tree}
      (mem : child ∈ children) (occurs : Occurs s child) : Occurs s (.node label children)

theorem occurs_leaf {s : Tree} {token : Token} : Occurs s (.leaf token) ↔ s = .leaf token := by
  constructor
  · rintro ⟨⟩
    rfl
  · rintro rfl
    exact .here

theorem occurs_node {s : Tree} {label : Query.Nonterminal} {children : List Tree} :
    Occurs s (.node label children) ↔
      s = .node label children ∨ ∃ child ∈ children, Occurs s child := by
  constructor
  · rintro (_ | ⟨hmem, hoccurs⟩)
    · exact Or.inl rfl
    · exact Or.inr ⟨_, hmem, hoccurs⟩
  · rintro (rfl | ⟨child, hmem, hoccurs⟩)
    · exact .here
    · exact .inside hmem hoccurs

/-- No parenthesised list is empty and every number is finite. -/
structure IsPlain (t : Tree) : Prop where
  parens : ∀ opening inner closing, Occurs (.node .searchTerm [opening, inner, closing]) t →
    inner.isEmpty = false
  numbers : ∀ token, Occurs (.leaf token) t → token.kind = .number →
    ∃ x, token.content = .number x ∧ Decimal.isFinite x = true

theorem IsPlain.child {label : Query.Nonterminal} {children : List Tree}
    (h : IsPlain (.node label children)) {child : Tree} (hmem : child ∈ children) :
    IsPlain child where
  parens opening inner closing hoccurs := h.parens opening inner closing (.inside hmem hoccurs)
  numbers token hoccurs := h.numbers token (.inside hmem hoccurs)

/-! ### Tests of terms -/

theorem record_eq_atScope (test : TermTest) (scope : Option String) :
    test.record scope = atScope test.value scope := by
  funext record
  cases scope <;> rfl

theorem containedIn_of (term : Token) (operator : Option Comparison) :
    (TermTest.of term operator).containedIn = mentions term.lexeme := by
  funext value
  simp only [TermTest.containedIn, TermTest.of, Text.contains_eq_decide]
  rfl

/-- Without a comparison a term is looked for. -/
theorem value_of_term (term : Token) : (TermTest.of term none).value = mentions term.lexeme := by
  funext value
  rw [← containedIn_of term none]
  rfl

/-- The text of a number is not found in a text without digits. -/
theorem not_contains_of_no_digit {x : Float} (hx : Decimal.isFinite x = true) {text : List Char}
    (htext : text.any Char.isDigit = false) :
    Text.contains (Text.lower (Decimal.Layout.query.text x).toList) text = false := by
  obtain ⟨c, hc, hdigit⟩ := Decimal.exists_digit_query_text hx
  rw [Bool.eq_false_iff]
  intro hcontains
  have hmem := (Text.contains_iff.mp hcontains).subset (Text.mem_lower_of_isDigit hdigit hc)
  exact List.any_eq_false.mp htext c hmem hdigit

/-- A number under a comparison is compared, and found nowhere else. -/
theorem value_of_number {operand : Token} {x : Float} (hcontent : operand.content = .number x)
    (hx : Decimal.isFinite x = true) (order : Comparison) :
    (TermTest.of operand (some order)).value = stands order x := by
  have hlexeme : operand.lexeme = Decimal.Layout.query.text x := by rw [Token.lexeme, hcontent]
  have hnumber : operand.number = some x := by rw [Token.number, hcontent]
  funext value
  simp only [TermTest.value, TermTest.of, hnumber, hlexeme, Option.bind_some, Option.map_some]
  cases value with
  | number n => rfl
  | string s => rfl
  | bool b =>
    have hdigits : (Text.lower (if b then "true" else "false").toList).any Char.isDigit = false := by
      cases b <;> decide
    exact not_contains_of_no_digit hx hdigits
  | null => rfl
  | array items => rfl
  | object fields => rfl

theorem exists_comparison_of_kind {k : Kind} (h : k.isComparison = true) :
    ∃ order, Comparison.ofKind k = some order := by
  cases k <;> first | exact ⟨_, rfl⟩ | cases h

end RecordSearch.Search
