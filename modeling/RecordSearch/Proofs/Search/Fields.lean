import RecordSearch.Proofs.Search.Hits
import RecordSearch.Proofs.Search.Negation
import RecordSearch.Proofs.Search.Scopes

/-! A scope narrows a query to one field. Without a scope a term may match any field of a record, and at a
    path of a single name it must match the field of that name, so there it matches less
    (`record_of_path`). Conjunctions and disjunctions only pass this on (`entails_join`), whatever is
    empty; under a negation it would turn round, and a scope within would lead elsewhere. So a query
    without either finds, below such a path, some of the hits that it finds anywhere (`run_belowPath`). -/

namespace RecordSearch.Search

open RecordSearch.Query (Tree Token Kind Nonterminal Grammar parseStrict isDerivation_of_parseStrict
  parseStrict_of_isDerivation)
open RecordSearch.Query.Nonterminal

/-! ### Single fields -/

theorem mem_fieldValues_of_fieldOf {record value : Record} {name : String}
    (h : fieldOf record name = some value) : value ∈ fieldValues record := by
  obtain ⟨fields, hfields, hlookup⟩ := Option.bind_eq_some_iff.mp h
  obtain ⟨before, after, rfl, -⟩ := List.lookup_eq_some_iff.mp hlookup
  rw [fieldValues, hfields]
  simp

/-- A path of a single name, with dots around it or not, leads to the field of that name. -/
theorem resolve_of_pathNames {path name : String} (hpath : pathNames path = [name]) (record : Record) :
    resolve record path = fieldOf record name := by
  rw [resolve, hpath, List.foldlM_cons]
  exact bind_pure _

/-- What matches at a path of a single name matches without a scope. -/
theorem record_of_path {path name : String} (hpath : pathNames path = [name]) {test : TermTest}
    {record : Record} (h : test.record (some path) record = true) : test.record none record = true := by
  rw [TermTest.record, resolve_of_pathNames hpath, Option.any_eq_true] at h
  obtain ⟨value, hfield, hvalue⟩ := h
  exact List.any_eq_true.mpr ⟨value, mem_fieldValues_of_fieldOf hfield, hvalue⟩

/-! ### Selections that keep less -/

variable {α : Type} {records : List Record}

/-- Two selections of which the first keeps no record that the second drops. -/
def Entails (records : List Record) (f g : WorkingSet α → WorkingSet α) : Prop :=
  ∃ p q : Record → Bool, Selects records false p f ∧ Selects records false q g ∧
    ∀ record, p record = true → q record = true

theorem entails_id : Entails (α := α) records id id :=
  ⟨fun _ => true, fun _ => true, selects_id fun _ => rfl, selects_id fun _ => rfl, fun _ => id⟩

theorem entails_join {f g f' g' : WorkingSet α → WorkingSet α} (hf : Entails records f f')
    (hg : Entails records g g') (connective : Connective) :
    Entails records (Comparator.joinMembers (connective.under false) f g)
      (Comparator.joinMembers (connective.under false) f' g') := by
  obtain ⟨p, p', hp, hp', hle⟩ := hf
  obtain ⟨q, q', hq, hq', hle'⟩ := hg
  refine ⟨_, _, selects_join hp hq connective, selects_join hp' hq' connective, fun record hkeeps => ?_⟩
  cases connective with
  | and =>
    obtain ⟨hl, hr⟩ := Bool.and_eq_true_iff.mp hkeeps
    exact Bool.and_eq_true_iff.mpr ⟨hle record hl, hle' record hr⟩
  | or =>
    refine Bool.or_eq_true_iff.mpr ?_
    rcases Bool.or_eq_true_iff.mp hkeeps with hl | hr
    · exact .inl (hle record hl)
    · exact .inr (hle' record hr)

section Path

variable {path name : String} (hpath : pathNames path = [name])

include hpath

theorem entails_search (operator : Option Comparison) (term : Token) :
    Entails (α := α) records ((Comparator.binary records).search ⟨some path, false, operator⟩ term)
      ((Comparator.binary records).search ⟨none, false, operator⟩ term) := by
  refine ⟨_, _, selects_search _ _ _ _, selects_search _ _ _ _, fun record h => ?_⟩
  rw [← record_eq_atScope] at h ⊢
  exact record_of_path hpath h

theorem entails_compare {operator : Tree} {operand : Token} (hconforms : operator.Conforms Grammar.query)
    (hoperator : operator.symbol = .nonterminal comparison)
    (hoperand : operand.kind = .number ∨ operand.kind = .searchTerm) :
    Entails (α := α) records
      (evaluate (Comparator.binary records) ⟨some path, false, none⟩ (.node term [operator, .leaf operand]))
      (evaluate (Comparator.binary records) ⟨none, false, none⟩ (.node term [operator, .leaf operand])) := by
  obtain ⟨children, rfl⟩ := Tree.exists_node_of_symbol hoperator
  cases hconforms.form with
  | only label_is => simp at label_is
  | @operator token token_is =>
    obtain ⟨order, horder⟩ := exists_comparison_of_kind token_is
    rcases hoperand with hnumber | hword
    · rw [evaluate_number horder hnumber, evaluate_number horder hnumber]
      exact entails_search hpath (some order) operand
    · rw [evaluate_compared_word horder hword, evaluate_compared_word horder hword]
      exact entails_search hpath none operand

end Path

/-! ### Queries without negations and scopes -/

/-- No token is a negation, and none ends a scope. -/
def Unscoped (tokens : List Token) : Prop :=
  ∀ token ∈ tokens, token.kind ≠ .exclude ∧ token.kind ≠ .groupTerminator

theorem Unscoped.child {label : Nonterminal} {children : List Tree} {child : Tree}
    (h : Unscoped (Query.Tree.node label children).leaves) (hmem : child ∈ children) :
    Unscoped child.leaves := by
  intro token htoken
  rw [Tree.leaves_node] at h
  exact h token ((Tree.leaves_infix_leavesOf hmem).subset htoken)

/-- In a group a scope ends. -/
theorem not_unscoped_group {segment colon : Token} {below : Tree}
    (h : (Query.Tree.node group [.leaf segment, .leaf colon, below]).Conforms Grammar.query) :
    ¬ Unscoped (Query.Tree.node group [.leaf segment, .leaf colon, below]).leaves := by
  intro hunscoped
  have hproduction := (Tree.conforms_node.mp h).1
  have hcolon : colon.kind = .groupTerminator := by
    simp [Grammar.query, Tree.symbol] at hproduction
    exact hproduction.2.1
  exact (hunscoped colon (by simp)).2 hcolon

/-- Below a path of a single name every phrase without negations and scopes keeps no record that it
    drops anywhere. -/
theorem entails_of_conforms {path name : String} (hpath : pathNames path = [name]) {t : Tree}
    (ht : t.Conforms Grammar.query) : ∀ {n : Nonterminal}, t.symbol = .nonterminal n → n ≠ comparison →
      Unscoped t.leaves →
        Entails (α := α) records (evaluate (Comparator.binary records) ⟨some path, false, none⟩ t)
          (evaluate (Comparator.binary records) ⟨none, false, none⟩ t) := by
  induction ht with
  | leaf token => intro n hsymbol; cases hsymbol
  | @node label children production conforms ih =>
    intro n hsymbol hcomparison hunscoped
    obtain rfl := Query.Symbol.nonterminal.inj hsymbol
    have hchild {child : Tree} {m : Nonterminal} (hmem : child ∈ children)
        (hm : child.symbol = .nonterminal m) (hcmp : m ≠ comparison) :
        Entails (α := α) records (evaluate (Comparator.binary records) ⟨some path, false, none⟩ child)
          (evaluate (Comparator.binary records) ⟨none, false, none⟩ child) :=
      ih child hmem hm hcmp (hunscoped.child hmem)
    cases Tree.form_of_production production with
    | none => exact entails_id
    | @more first rest first_is rest_is =>
      have hne := isEmpty_of_conforms (conforms first (by simp)) first_is (by decide)
      have hfirst := hchild (by simp) first_is (by decide)
      have hrest := hchild (by simp) rest_is (by decide)
      rw [evaluate_more hne, evaluate_more hne]
      split
      · exact hfirst
      · exact entails_join hfirst hrest .and
    | only label_is child_is _ no_comparison =>
      rw [evaluate_only label_is child_is, evaluate_only label_is child_is]
      exact hchild (by simp) child_is no_comparison
    | and lhs_is rhs_is =>
      rw [evaluate_and, evaluate_and]
      exact entails_join (hchild (by simp) lhs_is (by decide)) (hchild (by simp) rhs_is (by decide)) .and
    | or lhs_is rhs_is =>
      rw [evaluate_or, evaluate_or]
      exact entails_join (hchild (by simp) lhs_is (by decide)) (hchild (by simp) rhs_is (by decide)) .or
    | group => exact absurd hunscoped (not_unscoped_group (Tree.conforms_node.mpr ⟨production, conforms⟩))
    | exclude mark_is => exact absurd mark_is (hunscoped _ (by simp)).1
    | compare operator_is operand_is =>
      exact entails_compare hpath (conforms _ (by simp)) operator_is operand_is
    | @word token token_is =>
      rw [evaluate_word token_is, evaluate_word token_is]
      exact entails_search hpath none token
    | parens opening_is inner_is =>
      rw [evaluate_parens opening_is, evaluate_parens opening_is]
      exact hchild (by simp) inner_is (by decide)
    | operator => exact absurd rfl hcomparison

/-! ### Engines -/

/-- The query `path:( query )`. -/
def belowPath (path : Segment) (p : Parens) (query : Tree) : Tree := alone (path.group (p.term query))

theorem evaluate_belowPath {δ : Type} {c : Comparator δ} {flags : Flags} {path : Segment} {p : Parens}
    {t : Tree} : evaluate c flags (belowPath path p t) = evaluate c (flags.within path.name.lexeme) t := by
  rw [belowPath, evaluate_alone rfl, Segment.group, evaluate_group, evaluate_term_around]

theorem parseStrict_belowPath {tokens : List Token} {t : Tree} (ht : parseStrict tokens = .ok t)
    (path : Segment) (p : Parens) :
    parseStrict (path.name :: path.colon :: p.opening :: (tokens ++ [p.closing])) =
      .ok (belowPath path p t) := by
  obtain ⟨hroot, hconforms, hleaves⟩ := isDerivation_of_parseStrict ht
  have hterm : IsPhrase (.nonterminal term) (p.term t) :=
    isPhrase_node (by decide) (.cons (isPhrase_around ⟨hroot, hconforms⟩) .nil)
  have hgroup : IsPhrase (.nonterminal group) (path.group (p.term t)) :=
    isPhrase_node (by decide)
      (.cons (isPhrase_leaf path.name_is) (.cons (isPhrase_leaf path.colon_is) (.cons hterm .nil)))
  obtain ⟨hsymbol, hquery⟩ := isPhrase_alone (.inr rfl) hgroup
  refine parseStrict_of_isDerivation ⟨hsymbol, hquery, ?_⟩
  simp [belowPath, alone, listOf, Segment.group, Parens.term, Parens.around, hleaves]

/-- The tree of the query `mars OR >5`. -/
def marsOrLarge : Tree :=
  listOf (some (.node search [.node .or [
    .node searchType [.node term [.node searchTerm [.leaf (.ofText .searchTerm "mars" 0)]]],
    .leaf (.ofKind .or 5),
    .node search [.node searchType [.node term [
      .node comparison [.leaf (.ofKind .gt 8)],
      .leaf ⟨.number, .number 5, 9⟩]]]]]))

theorem parseStrict_marsOrLarge : parseStrict marsOrLarge.leaves = .ok marsOrLarge := by
  refine parseStrict_of_isDerivation ⟨rfl, ?_, rfl⟩
  simp [marsOrLarge, listOf, Grammar.query, Tree.symbol, Token.ofKind, Token.ofText]

namespace Engine

variable [Arithmetic α] {s : Setup}

/-- The query `path:( query )`, for a path of a single name and a query without negations and scopes, is
    parsed, and an engine that filters finds nothing with it that it does not find with the query alone:
    whatever was asked of the engine before, and whether records are supplied or are its own. -/
theorem run_belowPath (hbinary : s.strategy = .binary) (hfields : s.indexFields = [])
    (own : Option (List Record)) (operations : List Operation) {supplied : Option (List Record)}
    (hsearched : ((new s own : Engine α).afterAll operations).searched supplied = some records)
    {tokens : List Token} {t : Tree} (ht : parseStrict tokens = .ok t) (hunscoped : Unscoped tokens)
    (path : Segment) (p : Parens) {name : String} (hpath : pathNames path.name.lexeme = [name])
    (source source' : String) :
    parseStrict (path.name :: path.colon :: p.opening :: (tokens ++ [p.closing])) =
        .ok (belowPath path p t) ∧
      ∃ hits narrowed : List (Hit α),
        (((new s own : Engine α).afterAll operations).run ⟨t, source⟩ supplied).1 = .ok hits ∧
        (((new s own : Engine α).afterAll operations).run ⟨belowPath path p t, source'⟩ supplied).1 =
          .ok narrowed ∧
        narrowed ⊆ hits := by
  refine ⟨parseStrict_belowPath ht path p, ?_⟩
  have hcoherent := (coherent_new (α := α) s own).afterAll operations
  obtain ⟨w, -, hw, hrun⟩ := hcoherent.run_binary hbinary hfields hsearched
  refine ⟨_, _, hrun _, hrun _, fun hit hhit => ?_⟩
  obtain ⟨hroot, hconforms, hleaves⟩ := isDerivation_of_parseStrict ht
  rw [← hleaves] at hunscoped
  have hentails : Entails (α := α) records
      (evaluate (Comparator.binary records) (Flags.root.within path.name.lexeme) t)
      (evaluate (Comparator.binary records) .root t) :=
    entails_of_conforms hpath hconforms hroot (by decide) hunscoped
  obtain ⟨below, anywhere, hbelow, hanywhere, hle⟩ := hentails
  have hkept : evaluate (Comparator.binary records) .root t w = _ := hanywhere w hw
  rw [evaluate_belowPath, hbelow w hw, mem_rank] at hhit
  obtain ⟨hmem, hscore, hrecord⟩ := hhit
  rw [hkept, mem_rank]
  refine ⟨?_, hscore, hrecord⟩
  obtain ⟨hmember, hpasses⟩ := List.mem_filter.mp hmem
  rw [hrecord, Option.any_some, Bool.bne_false] at hpasses
  refine List.mem_filter.mpr ⟨hmember, ?_⟩
  rw [hrecord, Option.any_some, Bool.bne_false]
  exact hle hit.record hpasses

/-- `.n.:(mars OR >5)` finds some of what `mars OR >5` finds. -/
theorem run_belowPath_marsOrLarge :
    let path : Segment := ⟨.ofText .searchTerm ".n." 0, .ofKind .groupTerminator 3, rfl, rfl⟩
    let p : Parens := ⟨.ofKind .lparen 4, .ofKind .rparen 15, rfl, rfl⟩
    let e : Engine Rat := new ⟨.binary, [], false, .reset⟩ none
    let records : List Record := [.object [("n", .number (.integer 7))],
      .object [("orbit", .string "Mars"), ("n", .number (.integer 3))]]
    Unscoped marsOrLarge.leaves ∧ pathNames path.name.lexeme = ["n"] ∧
      ∃ hits narrowed : List (Hit Rat),
        (e.run ⟨marsOrLarge, "mars OR >5"⟩ (some records)).1 = .ok hits ∧
        (e.run ⟨belowPath path p marsOrLarge, ".n.:(mars OR >5)"⟩ (some records)).1 =
          .ok narrowed ∧
        narrowed ⊆ hits := by
  intro path p e records
  have hunscoped : Unscoped marsOrLarge.leaves := by
    simp [Unscoped, marsOrLarge, listOf, Token.ofKind, Token.ofText]
  have hpath : pathNames path.name.lexeme = ["n"] := by decide
  have hsearched : (e.afterAll []).searched (some records) = some records := rfl
  obtain ⟨-, hits, narrowed, hhits, hnarrowed, hsubset⟩ := run_belowPath rfl rfl none [] hsearched
    parseStrict_marsOrLarge hunscoped path p hpath "mars OR >5" ".n.:(mars OR >5)"
  exact ⟨hunscoped, hpath, hits, narrowed, hhits, hnarrowed, hsubset⟩

end Engine

end RecordSearch.Search
