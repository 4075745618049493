import RecordSearch.Proofs.Canonical
import RecordSearch.Proofs.Lexing.Pieces
import RecordSearch.Proofs.Search.Calls

/-! Expressions of a builder as they are written and read. The scope, the operator and the operand of a
    search are written without a separator, so what each is read as depends on its neighbours. A text
    that stands after no comparison and before no word is read alone (`ReadsAlone`); an operand is
    read as what its operator makes of it (`OperandReads`). An expression written so is read as its
    tree, and what stands to the left of a connective as the left operand (`Expression.WrittenAs`). -/

namespace RecordSearch.Search

open RecordSearch.Query

/-! ### Trees that calls describe are trees of the grammar -/

/-- A tree of the query grammar with a symbol at its top. -/
structure IsPhrase (s : Symbol) (t : Tree) : Prop where
  symbol : t.symbol = s
  conforms : t.Conforms Grammar.query

theorem isPhrase_mark (k : Kind) : IsPhrase (.terminal k) (mark k) := ⟨rfl, .leaf _⟩

theorem isPhrase_node {label : Nonterminal} {symbols : List Symbol} {children : List Tree}
    (hproduction : (⟨label, symbols⟩ : Production) ∈ Grammar.query.productions)
    (h : List.Forall₂ IsPhrase symbols children) :
    IsPhrase (.nonterminal label) (.node label children) := by
  have hall : children.map Tree.symbol = symbols ∧ ∀ t ∈ children, t.Conforms Grammar.query := by
    clear hproduction
    induction h with
    | nil => exact ⟨rfl, by simp⟩
    | cons hphrase _ ih =>
      refine ⟨?_, List.forall_mem_cons.mpr ⟨hphrase.conforms, ih.2⟩⟩
      rw [List.map_cons, hphrase.symbol, ih.1]
  refine ⟨rfl, .node ?_ hall.2⟩
  rw [hall.1]
  exact hproduction

section Phrases

variable {t : Tree}

theorem isPhrase_none : IsPhrase (.nonterminal .list) (listOf none) :=
  isPhrase_node (by decide) .nil

theorem isPhrase_listOf (h : IsPhrase (.nonterminal .search) t) :
    IsPhrase (.nonterminal .list) (listOf (some t)) :=
  isPhrase_node (by decide) (.cons h (.cons isPhrase_none .nil))

theorem isPhrase_inParens (h : IsPhrase (.nonterminal .list) t) :
    IsPhrase (.nonterminal .searchTerm) (.node .searchTerm (inParens t)) :=
  isPhrase_node (by decide) (.cons (isPhrase_mark _) (.cons h (.cons (isPhrase_mark _) .nil)))

theorem isPhrase_atPath (scope : Option String) (h : IsPhrase (.nonterminal .term) t) :
    IsPhrase (.nonterminal .searchType) (atPath scope t) := by
  cases scope with
  | none => exact isPhrase_node (by decide) (.cons h .nil)
  | some path =>
    have hpath : IsPhrase (.terminal .searchTerm) (.leaf (.ofText .searchTerm path 0)) :=
      ⟨rfl, .leaf _⟩
    have hgroup : IsPhrase (.nonterminal .group)
        (.node .group [.leaf (.ofText .searchTerm path 0), mark .groupTerminator, t]) :=
      isPhrase_node (by decide) (.cons hpath (.cons (isPhrase_mark _) (.cons h .nil)))
    exact isPhrase_node (by decide) (.cons hgroup .nil)

theorem isPhrase_searchTree {options : SearchOptions} {operand : List Tree}
    (h : IsPhrase (.nonterminal .term) (underOperator options.operator operand)) :
    IsPhrase (.nonterminal .search) (searchTree options operand) :=
  isPhrase_node (by decide) (.cons (isPhrase_atPath options.scope h) .nil)

theorem isPhrase_leftOperand (h : IsPhrase (.nonterminal .search) t) :
    IsPhrase (.nonterminal .searchType) (leftOperand t) := by
  unfold leftOperand
  split
  · exact ⟨rfl, (Tree.conforms_node.mp h.conforms).2 _ (List.mem_singleton_self _)⟩
  · have hterm : IsPhrase (.nonterminal .term)
        (.node .term [.node .searchTerm (inParens (listOf (some t)))]) :=
      isPhrase_node (by decide) (.cons (isPhrase_inParens (isPhrase_listOf h)) .nil)
    exact isPhrase_node (by decide) (.cons hterm .nil)

theorem isPhrase_joined {lhs rhs : Tree} (c : Connective) (h : IsPhrase (.nonterminal .search) lhs)
    (h' : IsPhrase (.nonterminal .search) rhs) :
    IsPhrase (.nonterminal .search) (joined lhs c rhs) := by
  have hparts : List.Forall₂ IsPhrase
      [.nonterminal .searchType, .terminal c.kind, .nonterminal .search]
      [leftOperand lhs, mark c.kind, rhs] :=
    .cons (isPhrase_leftOperand h) (.cons (isPhrase_mark _) (.cons h' .nil))
  have hconnective : IsPhrase (.nonterminal c.label)
      (.node c.label [leftOperand lhs, mark c.kind, rhs]) :=
    isPhrase_node (by cases c <;> decide) hparts
  exact isPhrase_node (by cases c <;> decide) (.cons hconnective .nil)

end Phrases

/-! ### Reading what was written -/

/-- Wherever no comparison stands before it and no word runs on after it, a text is read as some
    tokens. -/
def ReadsAlone (text : String) (tokens : List Token) : Prop :=
  ∀ (previous : Option Kind) (rest : List Char), previous.any Kind.isComparison = false →
    Apart rest → Reads previous text.toList tokens rest

theorem apart_of_endsWord {c : Char} (h : endsWord c = true) (cs : List Char) : Apart (c :: cs) :=
  .inr ⟨c, cs, rfl, h⟩

/-- What is written in parentheses is read wherever it stands. -/
theorem reads_inParens {text : String} {list : Tree} (h : ReadsAlone text list.leaves)
    (previous : Option Kind) (rest : List Char) :
    Reads previous ("(" ++ text ++ ")").toList (Tree.leavesOf (inParens list)) rest := by
  have htext : ("(" ++ text ++ ")").toList = "(".toList ++ (text.toList ++ ")".toList) := by
    rw [String.toList_append, String.toList_append, List.append_assoc]
  have hleaves : Tree.leavesOf (inParens list) =
      [.ofKind .lparen 0] ++ (list.leaves ++ [.ofKind .rparen 0]) := by
    simp [inParens, mark]
  rw [htext, hleaves]
  refine .append (.mark rfl trivial) (.append (h _ _ rfl ?_) (.mark rfl trivial))
  exact apart_of_endsWord (by decide) rest

/-- An operand is written before the rest of a query so that it is read as some trees below its
    operator. -/
structure OperandReads (operator : Option TermOperator) (written : String) (trees : List Tree) :
    Prop where
  phrase : IsPhrase (.nonterminal .term) (underOperator operator trees)
  reads : ∀ {previous : Option Kind} {rest : List Char},
    previous.any Kind.isComparison = isCompared operator → Apart rest →
      Reads previous written.toList (Tree.leavesOf trees) rest
  parted : ∀ {op : Comparison}, operator = some (.compare op) → ∀ rest,
    op.kind.Parted (written.toList ++ rest)

/-! ### Terms -/

theorem leaves_textLeaf {previous : Option Kind} {compared : Bool}
    (h : previous.any Kind.isComparison = compared) (text : String) :
    (textLeaf compared text).leaves = [Lexeme.operand previous 0 text.toList] := by
  rw [textLeaf, Lexeme.operand, h]
  generalize (if compared = true then Decimal.readFinite text.toList else none) = amount
  cases amount with
  | some x => rw [Tree.leaves_leaf]
  | none => rw [Tree.leaves_leaf, Token.ofText, String.ofList_toList]

theorem isPhrase_textLeaf (compared : Bool) (text : String) :
    IsPhrase (.terminal .searchTerm) (textLeaf compared text) ∨
      compared = true ∧ IsPhrase (.terminal .number) (textLeaf compared text) := by
  rw [textLeaf]
  split
  · next hnumber =>
    refine .inr ⟨?_, rfl, .leaf _⟩
    split at hnumber
    · assumption
    · cases hnumber
  · exact .inl ⟨rfl, .leaf _⟩

theorem isPhrase_underOperator {operator : Option TermOperator} {t : Tree}
    (h : IsPhrase (.terminal .searchTerm) t ∨
      isCompared operator = true ∧ IsPhrase (.terminal .number) t) :
    IsPhrase (.nonterminal .term) (underOperator operator [t]) := by
  rcases operator with _ | _ | op
  · have hword := h.resolve_right (by simp [isCompared])
    exact isPhrase_node (by decide) (.cons (isPhrase_node (by decide) (.cons hword .nil)) .nil)
  · have hword := h.resolve_right (by simp [isCompared])
    exact isPhrase_node (by decide)
      (.cons (isPhrase_mark _) (.cons (isPhrase_node (by decide) (.cons hword .nil)) .nil))
  · have hordering : IsPhrase (.nonterminal .comparison) (.node .comparison [mark op.kind]) :=
      isPhrase_node (by cases op <;> decide) (.cons (isPhrase_mark _) .nil)
    rcases h with hword | ⟨-, hnumber⟩
    · exact isPhrase_node (by decide) (.cons hordering (.cons hword .nil))
    · exact isPhrase_node (by decide) (.cons hordering (.cons hnumber .nil))

theorem of_checkText {text : String} (h : checkText text = .ok ()) :
    '"' ∉ text.toList ∧ Text.isBlankText text.toList = false := by
  rw [checkText] at h
  split at h
  · cases h
  · next hquote =>
    split at h
    · cases h
    · next hblank =>
      exact ⟨fun hmem => hquote (List.contains_iff_mem.mpr hmem), Bool.eq_false_iff.mpr hblank⟩

/-- A text that passes its check is read back under its operator, unless an equals sign would be taken
    for a part of that. -/
theorem operandReads_text {operator : Option TermOperator} {text : String}
    (hcheck : checkText text = .ok ())
    (hequals : operator = some (.compare .gt) ∨ operator = some (.compare .lt) →
      (quoteTerm text).toList.head? ≠ some '=') :
    OperandReads operator (quoteTerm text) [textLeaf (isCompared operator) text] where
  phrase := isPhrase_underOperator (isPhrase_textLeaf _ text)
  reads {previous rest} hprevious hrest := by
    obtain ⟨hquote, hvisible⟩ := of_checkText hcheck
    rw [Tree.leavesOf_cons, Tree.leavesOf_nil, List.append_nil, leaves_textLeaf hprevious]
    exact .operand hquote hvisible fun _ => hrest
  parted {op} hop rest := by
    obtain ⟨hquote, hvisible⟩ := of_checkText hcheck
    obtain ⟨c, cs, hreads⟩ : ∃ c cs, ReadsAs none 0 [] (quoteTerm text) c cs
        (Lexeme.operand none 0 text.toList) := readsAs_quoteTerm hquote hvisible fun _ => .inl rfl
    rw [hreads.written] at hequals ⊢
    cases op with
    | gt => exact hequals (.inl hop)
    | lt => exact hequals (.inr hop)
    | gte => trivial
    | lte => trivial

/-- A finite number is read back under its operator if its text reads as the number. -/
theorem operandReads_number {operator : Option TermOperator} {x : Float}
    (hfinite : Decimal.isFinite x = true)
    (hreads : Decimal.readFinite (Decimal.Layout.query.text x).toList = some x) :
    OperandReads operator (Decimal.Layout.query.text x) [numberLeaf (isCompared operator) x] := by
  have hleaf : numberLeaf (isCompared operator) x =
      textLeaf (isCompared operator) (Decimal.Layout.query.text x) := by
    rw [numberLeaf, textLeaf]
    cases isCompared operator with
    | true => simp only [if_true, hreads]
    | false => rfl
  have hquote := quote_not_mem_query_text hfinite
  have hvisible := Decimal.isBlankText_query_text hfinite
  have hcheck : checkText (Decimal.Layout.query.text x) = .ok () := by
    rw [checkText, if_neg fun h => hquote (List.contains_iff_mem.mp h), hvisible]
    rfl
  have hequals : (quoteTerm (Decimal.Layout.query.text x)).toList.head? ≠ some '=' := by
    rw [quoteTerm_query_text hfinite]
    intro hhead
    have hnumeric := Decimal.isNumeric_of_mem_query_text hfinite (List.mem_of_head? hhead)
    revert hnumeric
    decide
  have htext := @operandReads_text operator _ hcheck fun _ => hequals
  rw [quoteTerm_query_text hfinite] at htext
  rw [hleaf]
  exact htext

/-- Calls in parentheses are read back, except after an ordering. -/
theorem operandReads_group {operator : Option TermOperator} (hoperator : isCompared operator = false)
    {text : String} {list : Tree} (hphrase : IsPhrase (.nonterminal .list) list)
    (hreads : ReadsAlone text list.leaves) :
    OperandReads operator ("(" ++ text ++ ")") (inParens list) where
  phrase := by
    have hparens := isPhrase_inParens hphrase
    rcases operator with _ | _ | op
    · exact isPhrase_node (by decide) (.cons hparens .nil)
    · exact isPhrase_node (by decide) (.cons (isPhrase_mark _) (.cons hparens .nil))
    · cases hoperator
  reads {previous rest} _ _ := reads_inParens hreads previous rest
  parted {op} hop _ := by
    rw [hop] at hoperator
    cases hoperator

/-! ### Searches -/

theorem literal_kind (op : Comparison) : op.kind.literal = some op.symbol := by cases op <;> rfl

theorem readsAlone_underOperator {options : SearchOptions} {written : String} {trees : List Tree}
    (h : OperandReads options.operator written trees) :
    ReadsAlone (operatorText options ++ written) (underOperator options.operator trees).leaves := by
  intro previous rest hprevious hrest
  obtain ⟨scope, operator⟩ := options
  rw [String.toList_append]
  rcases operator with _ | _ | op
  · have hread := h.reads (hprevious.trans rfl) hrest
    simpa [operatorText, underOperator] using hread
  · have hmark : Reads previous "!".toList [.ofKind .exclude 0] (written.toList ++ rest) :=
      .mark rfl trivial
    have hread := hmark.append (h.reads rfl hrest)
    simpa [operatorText, TermOperator.symbol, underOperator, mark] using hread
  · have hmark : Reads previous op.symbol.toList [.ofKind op.kind 0] (written.toList ++ rest) :=
      .mark (literal_kind op) (h.parted rfl rest)
    have hcompared : (lastKind previous [.ofKind op.kind 0]).any Kind.isComparison = true := by
      cases op <;> rfl
    have hread := hmark.append (h.reads hcompared hrest)
    simpa [operatorText, TermOperator.symbol, underOperator, mark] using hread

/-- A search is read back with its scope. -/
theorem readsAlone_atPath {options : SearchOptions} (hcheck : checkScope options = .ok ())
    {text : String} {t : Tree} (h : ReadsAlone text t.leaves) :
    ReadsAlone (scopeText options ++ text) (atPath options.scope t).leaves := by
  intro previous rest hprevious hrest
  obtain ⟨scope, operator⟩ := options
  cases scope with
  | none =>
    have hread := h previous rest hprevious hrest
    simpa [scopeText, atPath] using hread
  | some path =>
    obtain ⟨hquote, hvisible⟩ := of_checkText hcheck
    have htext : (scopeText ⟨some path, operator⟩ ++ text).toList =
        (quoteTerm path).toList ++ (":".toList ++ text.toList) := by
      rw [scopeText, String.toList_append, String.toList_append, List.append_assoc]
    have hleaves : (atPath (some path) t).leaves =
        [.ofText .searchTerm path 0] ++ ([.ofKind .groupTerminator 0] ++ t.leaves) := by
      simp [atPath, mark]
    rw [htext, hleaves]
    refine .append ?_ (.append (.mark rfl trivial) (h _ _ rfl hrest))
    have hoperand := @Reads.operand previous (":".toList ++ text.toList ++ rest) path hquote hvisible
      fun _ => apart_of_endsWord (by decide) _
    rw [operand_term fun hcompared => by rw [hprevious] at hcompared; cases hcompared] at hoperand
    exact hoperand

/-! ### Expressions -/

/-- An expression is written so that it is read as a tree, also to the left of a connective. -/
structure Expression.WrittenAs (e : Expression) (t : Tree) : Prop where
  phrase : IsPhrase (.nonterminal .search) t
  reads : ReadsAlone e.written t.leaves
  left : ReadsAlone (leftText e e.written) (leftOperand t).leaves

theorem writtenAs_search {operand : Operand} {options : SearchOptions} {trees : List Tree}
    (hscope : checkScope options = .ok ())
    (h : OperandReads options.operator operand.written trees) :
    (Expression.search operand options).WrittenAs (searchTree options trees) := by
  have hreads := readsAlone_atPath hscope (readsAlone_underOperator h)
  rw [← String.append_assoc] at hreads
  have hleft : leftOperand (searchTree options trees) =
      atPath options.scope (underOperator options.operator trees) := by
    rw [searchTree]
    cases options.scope <;> rfl
  have hleaves : (searchTree options trees).leaves =
      (atPath options.scope (underOperator options.operator trees)).leaves := by
    simp [searchTree]
  constructor
  case phrase => exact isPhrase_searchTree h.phrase
  case reads =>
    rw [hleaves, Expression.written]
    exact hreads
  case left =>
    rw [hleft, Expression.written]
    exact hreads

theorem literal_connective (c : Connective) : c.kind.literal = some c.keyword := by
  cases c <;> rfl

/-- A connective with blanks around it is read between two texts. -/
theorem reads_between {c : Connective} {text text' : String} {ts us : List Token}
    (h : ReadsAlone text ts) (h' : ReadsAlone text' us) :
    ReadsAlone (text ++ " " ++ c.keyword ++ " " ++ text') (ts ++ .ofKind c.kind 0 :: us) := by
  intro previous rest hprevious hrest
  have hblank : ∀ cs, Apart (' ' :: cs) := apart_of_endsWord (by decide)
  have hbare : (some c.kind).any Kind.isComparison = false := by cases c <;> rfl
  have htext : (text ++ " " ++ c.keyword ++ " " ++ text').toList =
      text.toList ++ ([' '] ++ (c.keyword.toList ++ ([' '] ++ text'.toList))) := by
    simp
  have htokens : ts ++ .ofKind c.kind 0 :: us = ts ++ ([] ++ ([.ofKind c.kind 0] ++ ([] ++ us))) := rfl
  rw [htext, htokens]
  refine .append (h _ _ hprevious (hblank _)) (.append .blank (.append ?_ (.append .blank ?_)))
  · exact .mark (literal_connective c) ((hblank _).parted _)
  · exact h' _ _ hbare hrest

theorem writtenAs_joined {lhs rhs : Expression} {t u : Tree} (c : Connective)
    (hlhs : lhs.WrittenAs t) (hrhs : rhs.WrittenAs u) :
    (Expression.joined lhs c rhs).WrittenAs (joined t c u) := by
  have hleaves : (joined t c u).leaves = (leftOperand t).leaves ++ .ofKind c.kind 0 :: u.leaves := by
    simp [joined, mark]
  have hreads : ReadsAlone (Expression.joined lhs c rhs).written (joined t c u).leaves := by
    rw [Expression.written, hleaves]
    exact reads_between hlhs.left hrhs.reads
  have hleft : leftOperand (joined t c u) = .node .searchType
      [.node .term [.node .searchTerm (inParens (listOf (some (joined t c u))))]] := by
    cases c <;> rfl
  constructor
  case phrase => exact isPhrase_joined c hlhs.phrase hrhs.phrase
  case reads => exact hreads
  case left =>
    have hlist : (listOf (some (joined t c u))).leaves = (joined t c u).leaves := by
      simp [listOf]
    rw [← hlist] at hreads
    intro previous rest _ _
    have hparens := reads_inParens hreads previous rest
    rw [hleft]
    simpa [leftText] using hparens

end RecordSearch.Search
