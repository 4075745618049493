import RecordSearch.Proofs.Canonical
import RecordSearch.Proofs.Search.Filtering
import RecordSearch.Proofs.Search.History

/-! Negation and complement. Under an odd number of negations a tree drops what it keeps under an even
    one, except that an empty list keeps everything under both. So nothing is lost between a query
    and its negation (`covers_of_conforms`), and where no list in parentheses is empty, the negation
    finds the records that the query does not find (`run_negation`). -/

namespace RecordSearch.Search

open RecordSearch.Query (Tree Token Nonterminal Grammar)
open RecordSearch.Query.Nonterminal

/-- The tree of `!( t )`, with its marks at the given places. -/
def negation (mark opening closing : Nat) (t : Tree) : Tree :=
  .node list [
    .node search [.node searchType [.node term [
      .leaf (.ofKind .exclude mark),
      .node searchTerm [.leaf (.ofKind .lparen opening), t, .leaf (.ofKind .rparen closing)]]]],
    .node list []]

theorem evaluate_negation {δ : Type} {c : Comparator δ} {flags : Flags} {mark opening closing : Nat}
    {t : Tree} : evaluate c flags (negation mark opening closing t) = evaluate c flags.negated t := by
  rw [negation, evaluate_more rfl, evaluate_only (.inl rfl) rfl,
    evaluate_only (.inr (.inl rfl)) rfl, evaluate_exclude rfl rfl, evaluate_parens rfl]
  rfl

/-! ### Empty lists -/

/-- No list in parentheses is empty. -/
def NoEmptyParens (t : Tree) : Prop :=
  ∀ opening inner closing, Occurs (.node .searchTerm [opening, inner, closing]) t →
    inner.isEmpty = false

theorem NoEmptyParens.child {label : Nonterminal} {children : List Tree}
    (h : NoEmptyParens (.node label children)) {child : Tree} (hmem : child ∈ children) :
    NoEmptyParens child :=
  fun opening inner closing hoccurs => h opening inner closing (.inside hmem hoccurs)

/-- In a negation the list that is negated stands in parentheses itself. -/
theorem NoEmptyParens.of_negation {mark opening closing : Nat} {t : Tree}
    (h : NoEmptyParens (negation mark opening closing t)) : NoEmptyParens t ∧ t.isEmpty = false := by
  have hparens := (((h.child List.mem_cons_self).child List.mem_cons_self).child
    List.mem_cons_self).child (List.mem_cons_of_mem _ List.mem_cons_self)
  exact ⟨hparens.child (List.mem_cons_of_mem _ List.mem_cons_self), hparens _ _ _ .here⟩

theorem mem_leaves_of_occurs {token : Token} {t : Tree} (h : Occurs (.leaf token) t) :
    token ∈ t.leaves := by
  induction h with
  | here => exact List.mem_singleton_self token
  | inside hmem _ ih =>
    rw [Tree.leaves_node]
    exact (Tree.leaves_infix_leavesOf hmem).subset ih

/-- A compiled query is plain if no list in parentheses is empty. -/
theorem isPlain_of_compile {recovery : Bool} {query : String} {t : Tree}
    (h : Query.compile recovery query = .ok t) (hparens : NoEmptyParens t) : IsPlain t where
  parens := hparens
  numbers _ hoccurs hnumber := by
    obtain ⟨previous, hsuits⟩ :=
      (Query.suits_of_compile h).2.exists_of_mem (mem_leaves_of_occurs hoccurs)
    exact hsuits.exists_number hnumber

/-! ### Both parities -/

variable {α : Type} {records : List Record}

/-- What a tree keeps under an even number of negations and what it keeps under an odd number are
    every record together. -/
def Covers (α : Type) (records : List Record) (t : Tree) : Prop :=
  ∀ scope, ∃ even odd : Record → Bool,
    Selects (α := α) records false even
      (evaluate (Comparator.binary records) ⟨scope, false, none⟩ t) ∧
    Selects (α := α) records true odd
      (evaluate (Comparator.binary records) ⟨scope, true, none⟩ t) ∧
    ∀ record, odd record = true → even record = true

/-- The empty list keeps everything under both parities. -/
theorem covers_none : Covers α records (.node list []) := by
  intro scope
  refine ⟨fun _ => true, fun _ => false, selects_id fun _ => rfl, selects_id fun _ => rfl, ?_⟩
  intro record hodd
  cases hodd

theorem covers_join (connective : Connective) {t lhs rhs : Tree}
    (hevaluate : ∀ scope exclude,
      evaluate (Comparator.binary records) ⟨scope, exclude, none⟩ t =
        Comparator.joinMembers (α := α) (connective.under exclude)
          (evaluate (Comparator.binary records) ⟨scope, exclude, none⟩ lhs)
          (evaluate (Comparator.binary records) ⟨scope, exclude, none⟩ rhs))
    (hlhs : Covers α records lhs) (hrhs : Covers α records rhs) : Covers α records t := by
  intro scope
  obtain ⟨p, p', hp, hp', hle⟩ := hlhs scope
  obtain ⟨q, q', hq, hq', hle'⟩ := hrhs scope
  refine ⟨_, _, hevaluate scope false ▸ selects_join hp hq connective,
    hevaluate scope true ▸ selects_join hp' hq' connective, fun record => ?_⟩
  have hl := hle record
  have hr := hle' record
  cases connective with
  | and =>
    simp only [Comparator.keeps, Bool.and_eq_true]
    exact And.imp hl hr
  | or =>
    simp only [Comparator.keeps, Bool.or_eq_true]
    exact Or.imp hl hr

/-- A term drops under a negation what it keeps without. -/
theorem covers_search {operator : Option Comparison} {term : Token} {t : Tree}
    (hevaluate : ∀ scope exclude,
      evaluate (Comparator.binary (α := α) records) ⟨scope, exclude, none⟩ t =
        (Comparator.binary records).search ⟨scope, exclude, operator⟩ term) :
    Covers α records t := by
  intro scope
  exact ⟨_, _, hevaluate scope false ▸ selects_search scope false operator term,
    hevaluate scope true ▸ selects_search scope true operator term, fun _ => id⟩

theorem covers_compare {operator : Tree} {operand : Token}
    (hconforms : operator.Conforms Grammar.query)
    (hoperator : operator.symbol = .nonterminal comparison)
    (hoperand : operand.kind = .number ∨ operand.kind = .searchTerm) :
    Covers α records (.node term [operator, .leaf operand]) := by
  obtain ⟨children, rfl⟩ := Tree.exists_node_of_symbol hoperator
  cases hconforms.form with
  | only label_is => simp at label_is
  | @operator token token_is =>
    obtain ⟨order, horder⟩ := exists_comparison_of_kind token_is
    rcases hoperand with hnumber | hword
    · exact covers_search fun scope exclude => evaluate_number horder hnumber
    · exact covers_search fun scope exclude => evaluate_compared_word horder hword

/-- One negation more turns the parities round. -/
theorem covers_exclude {t operand : Tree}
    (hevaluate : ∀ flags, evaluate (Comparator.binary (α := α) records) flags t =
      evaluate (Comparator.binary records) flags.negated operand)
    (h : Covers α records operand) : Covers α records t := by
  intro scope
  obtain ⟨p, q, hp, hq, hle⟩ := h scope
  have hnot : ∀ {exclude : Bool} {test : Record → Bool} {f : WorkingSet α → WorkingSet α},
      Selects records exclude test f → Selects records (!exclude) (fun record => !test record) f := by
    intro exclude test f hf w hw
    rw [hf w hw]
    refine select_congr hw fun record => ?_
    rw [Bool.not_bne_not]
  refine ⟨_, _, hevaluate ⟨scope, false, none⟩ ▸ hnot hq,
    hevaluate ⟨scope, true, none⟩ ▸ hnot hp, fun record hodd => ?_⟩
  rw [Bool.not_eq_true'] at hodd ⊢
  rw [Bool.eq_false_iff]
  intro heven
  rw [hle record heven] at hodd
  cases hodd

/-- Every phrase of a query keeps each record under an even number of negations or under an odd
    one. -/
theorem covers_of_conforms {t : Tree} (ht : t.Conforms Grammar.query) :
    ∀ {n : Nonterminal}, t.symbol = .nonterminal n → n ≠ comparison → Covers α records t := by
  induction ht with
  | leaf token => intro n hsymbol; cases hsymbol
  | @node label children production conforms ih =>
    intro n hsymbol hcomparison
    obtain rfl := Query.Symbol.nonterminal.inj hsymbol
    cases Tree.form_of_production production with
    | none => exact covers_none
    | @more first rest first_is rest_is =>
      have hne := isEmpty_of_conforms (conforms first (by simp)) first_is (by decide)
      have hfirst := ih first (by simp) first_is (by decide)
      have hrest := ih rest (by simp) rest_is (by decide)
      cases hempty : rest.isEmpty with
      | true =>
        intro scope
        rw [evaluate_more hne, evaluate_more hne, hempty]
        exact hfirst scope
      | false =>
        refine covers_join .and (fun scope exclude => ?_) hfirst hrest
        rw [evaluate_more hne, hempty]
        rfl
    | only label_is child_is _ no_comparison =>
      intro scope
      rw [evaluate_only label_is child_is, evaluate_only label_is child_is]
      exact ih _ (by simp) child_is no_comparison scope
    | and lhs_is rhs_is =>
      have hlhs := ih _ (by simp) lhs_is (by decide)
      have hrhs := ih _ (by simp) rhs_is (by decide)
      exact covers_join .and (fun scope exclude => evaluate_and) hlhs hrhs
    | or lhs_is rhs_is =>
      have hlhs := ih _ (by simp) lhs_is (by decide)
      have hrhs := ih _ (by simp) rhs_is (by decide)
      exact covers_join .or (fun scope exclude => evaluate_or) hlhs hrhs
    | @group segment colon body body_is =>
      intro scope
      have hwithin : ∀ exclude, Flags.within segment.lexeme ⟨scope, exclude, none⟩ =
          ⟨some (extend scope segment.lexeme), exclude, none⟩ := fun _ => by cases scope <;> rfl
      rw [evaluate_group, evaluate_group, hwithin, hwithin]
      exact ih body (by simp) body_is (by decide) _
    | exclude mark_is operand_is =>
      exact covers_exclude (fun flags => evaluate_exclude mark_is operand_is)
        (ih _ (by simp) operand_is (by decide))
    | compare operator_is operand_is =>
      exact covers_compare (conforms _ (by simp)) operator_is operand_is
    | word token_is => exact covers_search fun scope exclude => evaluate_word token_is
    | parens opening_is inner_is =>
      intro scope
      rw [evaluate_parens opening_is, evaluate_parens opening_is]
      exact ih _ (by simp) inner_is (by decide) scope
    | operator => exact absurd rfl hcomparison

/-! ### Hits -/

/-- What the binary comparator does leaves a working set over the same records. -/
theorem keeps_over : (Comparator.binary (α := α) records).Keeps fun f =>
    ∀ w, w.Over records → (f w).Over records where
  rest _ hw := hw
  clear _ hw := ⟨hw.scores_length, nofun⟩
  search _ _ _ hw := over_retain hw _
  join connective f g hf hg w hw := by
    cases connective with
    | and => exact hg _ (hf w hw)
    | or => exact over_retain hw _

section Hits

variable [Arithmetic α]

/-- What is ranked is found at the places of the members. -/
theorem mem_position_rank {w : WorkingSet α} (hw : w.Over records) {id : Nat} :
    id ∈ (rank records w).map Hit.position ↔ id ∈ w.members := by
  simp only [rank, List.mem_map, List.mem_mergeSort, List.mem_filterMap, Option.map_eq_some_iff]
  constructor
  · rintro ⟨_, ⟨member, hmember, record, -, rfl⟩, rfl⟩
    exact hmember
  · intro hid
    have hlt := hw.members_lt id hid
    exact ⟨_, ⟨id, hid, records[id], List.getElem?_eq_getElem hlt, rfl⟩, rfl⟩

end Hits

section Queries

variable {w : WorkingSet α}

/-- A selection from all records holds those that pass. -/
theorem mem_select {exclude : Bool} {test : Record → Bool}
    (hmembers : w.members = List.range records.length) {id : Nat} (hid : id < records.length) :
    id ∈ (select records exclude test w).members ↔ (test records[id] != exclude) = true := by
  rw [select, WorkingSet.retain, List.mem_filter, hmembers, List.mem_range,
    List.getElem?_eq_getElem hid, Option.any_some]
  exact and_iff_right hid

variable {t : Tree} (hw : w.Over records) (hmembers : w.members = List.range records.length)

include hw hmembers

/-- Every record is kept by a query or by what is evaluated for its negation. -/
theorem mem_evaluate_or (ht : t.Conforms Grammar.query) (hroot : t.symbol = .nonterminal list)
    {id : Nat} (hid : id < records.length) :
    id ∈ (evaluate (Comparator.binary records) .root t w).members ∨
      id ∈ (evaluate (Comparator.binary records) Flags.root.negated t w).members := by
  have hcovered : Covers α records t := covers_of_conforms ht hroot (by decide)
  obtain ⟨even, odd, heven, hodd, hcovers⟩ := hcovered none
  have hkept : evaluate (Comparator.binary records) .root t w = _ := heven w hw
  have hdropped : evaluate (Comparator.binary records) Flags.root.negated t w = _ := hodd w hw
  rw [hkept, hdropped, mem_select hmembers hid, mem_select hmembers hid]
  cases hrecord : odd records[id] with
  | true =>
    rw [hcovers _ hrecord]
    exact .inl rfl
  | false => exact .inr rfl

/-- Where no list in parentheses is empty, what is evaluated for the negation keeps the records that
    the query does not keep. -/
theorem mem_evaluate_negated (ht : t.Conforms Grammar.query) (hroot : t.symbol = .nonterminal list)
    (hplain : IsPlain t) (hempty : t.isEmpty = false) {id : Nat} (hid : id < records.length) :
    id ∈ (evaluate (Comparator.binary records) Flags.root.negated t w).members ↔
      id ∉ (evaluate (Comparator.binary records) .root t w).members := by
  have hagrees : Agrees α records t := agrees_of_conforms ht hroot (by decide) hplain hempty
  have hkept : evaluate (Comparator.binary records) .root t w = _ := hagrees none false w hw
  have hdropped : evaluate (Comparator.binary records) Flags.root.negated t w = _ :=
    hagrees none true w hw
  rw [hkept, hdropped, mem_select hmembers hid, mem_select hmembers hid]
  cases satisfies t none records[id] <;> decide

end Queries

/-! ### Engines -/

/-- The tree of the query `()`. -/
def emptyParens : Tree :=
  .node list [
    .node search [.node searchType [.node term [.node searchTerm [
      .leaf (.ofKind .lparen 0), .node list [], .leaf (.ofKind .rparen 1)]]]],
    .node list []]

theorem compile_emptyParens : Query.compile false "()" = .ok emptyParens := by
  have htokens : Query.tokenize "()" = emptyParens.leaves := rfl
  refine Query.compile_of_parseStrict ?_
  rw [htokens]
  exact Query.parseStrict_of_isDerivation
    ⟨rfl, by simp [emptyParens, Grammar.query, Tree.symbol, Token.ofKind, Token.ofText], rfl⟩

namespace Engine

variable [Arithmetic α] {s : Setup} {e : Engine α}

/-- An engine that filters, and so has no indexes, ranks what the binary comparator leaves of all the
    records that are searched. -/
theorem Coherent.run_binary (h : e.Coherent s) (hbinary : s.strategy = .binary)
    (hfields : s.indexFields = []) {supplied : Option (List Record)}
    (hsearched : supplied.or (e.dataset.map Dataset.records) = some records) :
    ∃ w : WorkingSet α, w.members = List.range records.length ∧ w.Over records ∧
      ∀ query, (e.run query supplied).1 =
        .ok (rank records (evaluate (Comparator.binary records) .root query.tree w)) := by
  have hcheck : s.checkIndexing = .ok () := by rw [Setup.checkIndexing, hfields]
  obtain ⟨indexes, w, hstart, hrun⟩ := h.run_searched hsearched
  obtain ⟨hmembers, hcapacity⟩ := h.startsFrom_whole hstart
  refine ⟨w, hmembers, ⟨hcapacity, fun id hid => ?_⟩, fun query => ?_⟩
  · rw [hmembers] at hid
    exact List.mem_range.mp hid
  · rw [hrun, hcheck, Setup.eval, Setup.comparator, hbinary]
    rfl

/-- An engine that filters finds every record by a query or by its negation, and if no list in
    parentheses is empty, that of the negation included, the negation finds just the records that the
    query does not find. The records are supplied with the run or are the engine's own. -/
theorem run_negation {query : String} {t : Tree} (hquery : Query.compile false query = .ok t)
    (hbinary : s.strategy = .binary) (hfields : s.indexFields = []) (own : Option (List Record))
    (operations : List Operation) {supplied : Option (List Record)}
    (hsearched : supplied.or
      (((new s own : Engine α).afterAll operations).dataset.map Dataset.records) = some records)
    (mark opening closing : Nat) (source : String) :
    ∃ hits others : List (Hit α),
      (((new s own : Engine α).afterAll operations).run ⟨t, query⟩ supplied).1 = .ok hits ∧
      (((new s own : Engine α).afterAll operations).run
        ⟨negation mark opening closing t, source⟩ supplied).1 = .ok others ∧
      (∀ id < records.length, id ∈ hits.map Hit.position ∨ id ∈ others.map Hit.position) ∧
      (NoEmptyParens (negation mark opening closing t) → ∀ id, id ∈ others.map Hit.position ↔
        id < records.length ∧ id ∉ hits.map Hit.position) := by
  have hcoherent := (coherent_new (α := α) s own).afterAll operations
  obtain ⟨w, hmembers, hw, hrun⟩ := hcoherent.run_binary hbinary hfields hsearched
  have hderivation := (Query.suits_of_compile hquery).1
  have hover : ∀ flags t, (evaluate (Comparator.binary records) flags t w).Over records :=
    fun flags t => evaluate_keeps keeps_over t flags w hw
  refine ⟨_, _, hrun _, hrun _, fun id hid => ?_, fun hparens id => ?_⟩
  · rw [mem_position_rank (hover _ _), mem_position_rank (hover _ _), evaluate_negation]
    exact mem_evaluate_or hw hmembers hderivation.conforms hderivation.root hid
  · obtain ⟨hinner, hempty⟩ := hparens.of_negation
    have hplain := isPlain_of_compile hquery hinner
    rw [mem_position_rank (hover _ _), mem_position_rank (hover _ _), evaluate_negation]
    constructor
    · intro hmem
      have hid := (hover _ _).members_lt id hmem
      exact ⟨hid, (mem_evaluate_negated hw hmembers hderivation.conforms hderivation.root hplain
        hempty hid).mp hmem⟩
    · rintro ⟨hid, hmem⟩
      exact (mem_evaluate_negated hw hmembers hderivation.conforms hderivation.root hplain
        hempty hid).mpr hmem

/-- Whether the number is at most five and the negation of that. -/
theorem run_negation_atMostFive :
    let e : Engine Rat := new ⟨.binary, [], false, .reset⟩ none
    let records : List Record :=
      [.object [("n", .number (.integer 7))], .object [("n", .number (.integer 3))]]
    ∃ hits others : List (Hit Rat),
      (e.run ⟨Tree.atMostFive, "!(n:>5)"⟩ (some records)).1 = .ok hits ∧
      (e.run ⟨negation 0 1 9 Tree.atMostFive, "!(!(n:>5))"⟩ (some records)).1 = .ok others ∧
      ∀ id, id ∈ others.map Hit.position ↔ id < 2 ∧ id ∉ hits.map Hit.position := by
  intro e records
  have hparens : NoEmptyParens (negation 0 1 9 Tree.atMostFive) := by
    intro opening inner closing h
    simp only [negation, Tree.atMostFive, occurs_leaf, occurs_node, List.mem_cons, List.not_mem_nil,
      or_false, exists_eq_or_imp, exists_eq_left, Tree.node.injEq, List.cons.injEq, reduceCtorEq,
      false_and, and_false, false_or, true_and, and_true, exists_false] at h
    rcases h with h | h
    · rw [h.2.1]
      rfl
    · rw [h.2.1]
      rfl
  have hsearched : (some records).or ((e.afterAll []).dataset.map Dataset.records) =
      some records := rfl
  obtain ⟨hits, others, hhits, hothers, -, hcomplement⟩ :=
    run_negation Query.compile_atMostFive rfl rfl none [] hsearched 0 1 9 "!(!(n:>5))"
  exact ⟨hits, others, hhits, hothers, hcomplement hparens⟩

/-- An empty list in parentheses finds every record, and so does its negation. -/
theorem run_negation_emptyParens :
    let e : Engine Rat := new ⟨.binary, [], false, .reset⟩ none
    Query.compile false "()" = .ok emptyParens ∧ ∃ hits others : List (Hit Rat),
      (e.run ⟨emptyParens, "()"⟩ (some [.object []])).1 = .ok hits ∧
      (e.run ⟨negation 0 1 4 emptyParens, "!(())"⟩ (some [.object []])).1 = .ok others ∧
      0 ∈ hits.map Hit.position ∧ 0 ∈ others.map Hit.position := by
  intro e
  have hover : (WorkingSet.full 1 : WorkingSet Rat).Over [.object []] := ⟨rfl, by decide⟩
  have hmem : 0 ∈ (rank [.object []] (.full 1 : WorkingSet Rat)).map Hit.position :=
    (mem_position_rank hover).mpr List.mem_cons_self
  exact ⟨compile_emptyParens, rank [.object []] (.full 1), rank [.object []] (.full 1), rfl, rfl,
    hmem, hmem⟩

end Engine

end RecordSearch.Search
