import RecordSearch.Proofs.Search.Combining
import RecordSearch.Proofs.Search.Hits
import RecordSearch.Proofs.Search.Negation

/-! Running queries that are put together by calls. Their text compiles to the tree that the calls
    describe, places apart, and no place matters to what a tree does (`evaluate_unplaced`). So an engine
    that filters finds just the records that the calls find, in order (`run_compileBuilt`). -/

namespace RecordSearch.Search

open RecordSearch.Query (Tree Token Nonterminal Grammar)
open RecordSearch.Query.Nonterminal

/-! ### Places of tokens -/

section Places

variable {δ : Type} {c : Comparator δ}

theorem kind_unplaced (token : Token) : token.unplaced.kind = token.kind := rfl

theorem isEmpty_unplaced (t : Tree) : t.unplaced.isEmpty = t.isEmpty := by
  cases t with
  | leaf token => rw [Tree.unplaced, Tree.isEmpty, Tree.isEmpty]
  | node label children =>
    rw [Tree.unplaced, Tree.unplacedOf_eq_map, Tree.isEmpty, Tree.isEmpty, List.isEmpty_map]

/-- What a query does to data does not depend on the places of its tokens, if no term does. -/
theorem evaluate_unplaced
    (hplaces : ∀ flags token, c.search flags token.unplaced = c.search flags token) {t : Tree}
    (ht : t.Conforms Grammar.query) : ∀ {n : Nonterminal}, t.symbol = .nonterminal n →
      n ≠ comparison → ∀ flags, evaluate c flags t.unplaced = evaluate c flags t := by
  induction ht with
  | leaf token => intro n hsymbol; cases hsymbol
  | @node label children production conforms ih =>
    intro n hsymbol hcomparison flags
    obtain rfl := Query.Symbol.nonterminal.inj hsymbol
    cases Tree.form_of_production production with
    | none => simp only [Tree.unplaced, Tree.unplacedOf]
    | @more first rest first_is rest_is =>
      have hne := isEmpty_of_conforms (conforms first (by simp)) first_is (by decide)
      have hfirst := ih first (by simp) first_is (by decide) flags
      have hrest := ih rest (by simp) rest_is (by decide) flags
      simp only [Tree.unplaced, Tree.unplacedOf]
      rw [evaluate_more hne, evaluate_more ((isEmpty_unplaced first).trans hne), isEmpty_unplaced,
        hfirst, hrest]
    | @only _ _ child label_is child_is no_list no_comparison =>
      simp only [Tree.unplaced, Tree.unplacedOf]
      rw [evaluate_only label_is child_is,
        evaluate_only label_is ((Tree.symbol_unplaced child).trans child_is)]
      exact ih child (by simp) child_is no_comparison flags
    | @and lhs rhs keyword lhs_is rhs_is =>
      simp only [Tree.unplaced, Tree.unplacedOf]
      rw [evaluate_and, evaluate_and, ih lhs (by simp) lhs_is (by decide),
        ih rhs (by simp) rhs_is (by decide)]
    | @or lhs rhs keyword lhs_is rhs_is =>
      simp only [Tree.unplaced, Tree.unplacedOf]
      rw [evaluate_or, evaluate_or, ih lhs (by simp) lhs_is (by decide),
        ih rhs (by simp) rhs_is (by decide)]
    | @group segment colon below below_is =>
      simp only [Tree.unplaced, Tree.unplacedOf]
      rw [evaluate_group, evaluate_group, ih below (by simp) below_is (by decide)]
      rfl
    | @exclude mark operand mark_is operand_is =>
      have hoperand : operand.unplaced.symbol = _ := (Tree.symbol_unplaced operand).trans operand_is
      simp only [Tree.unplaced, Tree.unplacedOf]
      rw [evaluate_exclude mark_is operand_is,
        evaluate_exclude ((kind_unplaced mark).trans mark_is) hoperand]
      exact ih operand (by simp) operand_is (by decide) flags.negated
    | @compare operator operand operator_is operand_is =>
      obtain ⟨marks, rfl⟩ := Tree.exists_node_of_symbol operator_is
      cases (conforms _ List.mem_cons_self).form with
      | only label_is => simp at label_is
      | @operator mark mark_is =>
        obtain ⟨order, horder⟩ := exists_comparison_of_kind mark_is
        have horder' : Comparison.ofKind mark.unplaced.kind = some order := horder
        have hkind := kind_unplaced operand
        simp only [Tree.unplaced, Tree.unplacedOf]
        rcases operand_is with hnumber | hword
        · rw [evaluate_number horder hnumber, evaluate_number horder' (hkind.trans hnumber), hplaces]
        · rw [evaluate_compared_word horder hword, evaluate_compared_word horder' (hkind.trans hword),
            hplaces]
    | @word token token_is =>
      simp only [Tree.unplaced, Tree.unplacedOf]
      rw [evaluate_word token_is, evaluate_word ((kind_unplaced token).trans token_is), hplaces]
    | @parens opening closing inner opening_is inner_is =>
      simp only [Tree.unplaced, Tree.unplacedOf]
      rw [evaluate_parens opening_is, evaluate_parens ((kind_unplaced opening).trans opening_is)]
      exact ih inner (by simp) inner_is (by decide) flags
    | operator => exact absurd rfl hcomparison

end Places

/-- Tokens that are the leaves of a query, places apart, are parsed as one that does the same. -/
theorem exists_parseStrict_of_leaves {tokens : List Token} {t : Tree}
    (ht : IsPhrase (.nonterminal list) t)
    (htokens : tokens.map Token.unplaced = t.leaves.map Token.unplaced) :
    ∃ u, Query.parseStrict tokens = .ok u ∧ ∀ {δ : Type} (c : Comparator δ) (flags : Flags),
      (∀ flags token, c.search flags token.unplaced = c.search flags token) →
      evaluate c flags u = evaluate c flags t := by
  obtain ⟨u, hu, hsame⟩ := Query.exists_isDerivation_of_unplaced ⟨ht.symbol, ht.conforms, rfl⟩ htokens
  refine ⟨u, Query.parseStrict_of_isDerivation hu, fun c flags hplaces => ?_⟩
  rw [← evaluate_unplaced hplaces hu.conforms hu.root (by decide), hsame]
  exact evaluate_unplaced hplaces ht.conforms ht.symbol (by decide) flags

/-- Calls that pass their check are written as a text that compiles, without recovery, to a query that
    does what their tree does. -/
theorem exists_compile_plain {calls : List Call} (hcheck : (Builder.ofCalls calls).check = .ok ())
    (hplain : PlainCalls calls) : ∃ u, Query.compile false (Builder.ofCalls calls).text = .ok u ∧
      ∀ (α : Type) (records : List Record), evaluate (Comparator.binary (α := α) records) .root u =
        evaluate (Comparator.binary records) .root (treeOf calls) := by
  obtain ⟨waiting, hholds⟩ := holds_after calls hplain.rereadable (Holds.nothing (c := .and))
  obtain ⟨hphrase, hreads⟩ := hholds.written hcheck
  obtain ⟨u, hu, hsame⟩ := exists_parseStrict_of_leaves hphrase
    (hreads none [] rfl (.inl rfl)).tokenize
  exact ⟨u, Query.compile_of_parseStrict hu, fun α records =>
    hsame (.binary records) .root fun _ _ => rfl⟩

/-! ### Hits -/

section Hits

variable {records : List Record} {w : WorkingSet Float}

/-- Hits whose scores are all zero are ranked as they are found. -/
theorem rank_of_unscored (h : w.Unscored) : rank records w = found records w := by
  refine List.mergeSort_of_pairwise (List.pairwise_of_forall_mem_list fun a ha b hb => ?_)
  have hzero : ∀ hit ∈ found records w, hit.score = 0 := fun hit hhit =>
    (mem_rank.mp ((rank_perm records w).mem_iff.mpr hhit)).2.1.trans (h.score_eq_zero hit.position)
  rw [hzero a ha, hzero b hb]
  exact ranksBefore_iff.mpr (le_refl _)

/-- The records at the places of those that pass a test are the records that pass it. -/
theorem filterMap_filter_range (test : Record → Bool) : ∀ records : List Record,
    ((List.range records.length).filter fun id => (records[id]?).any test).filterMap (records[·]?) =
      records.filter test
  | [] => rfl
  | record :: records => by
    have hrest := filterMap_filter_range test records
    rw [List.length_cons, List.range_succ_eq_map, List.filter_cons, List.filter_map, List.filter_cons]
    simp only [List.getElem?_cons_zero, Option.any_some]
    split
    · rw [List.filterMap_cons_some List.getElem?_cons_zero, List.filterMap_map]
      exact congrArg (record :: ·) hrest
    · rw [List.filterMap_map]
      exact hrest

/-- What is selected from all records is found with its places and records. -/
theorem found_select {test : Record → Bool} (hmembers : w.members = List.range records.length) :
    (found records (select records false test w)).map Hit.position =
        (List.range records.length).filter (fun id => (records[id]?).any test) ∧
      (found records (select records false test w)).map Hit.record = records.filter test := by
  have hselected : (select records false test w).members =
      (List.range records.length).filter fun id => (records[id]?).any test := by
    rw [select, WorkingSet.retain, hmembers]
    simp only [Bool.bne_false]
  constructor
  · rw [found, List.map_filterMap, hselected]
    refine (List.filterMap_congr fun id hid => ?_).trans List.filterMap_some
    rw [List.getElem?_eq_getElem (List.mem_range.mp (List.mem_of_mem_filter hid))]
    rfl
  · rw [found, List.map_filterMap, hselected, ← filterMap_filter_range]
    refine List.filterMap_congr fun id _ => ?_
    cases records[id]? <;> rfl

end Hits

namespace Engine

/-- Whatever was asked of an engine that filters, a query put together by calls that compare nothing
    compiles and finds just the records, its own or supplied ones, that the calls find. -/
theorem run_compileBuilt {s : Setup} (hbinary : s.strategy = .binary) (hfields : s.indexFields = [])
    (hstrict : s.recovery = false) {calls : List Call}
    (hcheck : (Builder.ofCalls calls).check = .ok ()) (hplain : PlainCalls calls)
    (own : Option (List Record)) (operations : List Operation) {supplied : Option (List Record)}
    {records : List Record}
    (hsearched : ((new s own : Engine Float).afterAll operations).searched supplied = some records) :
    ∃ query hits,
      ((new s own : Engine Float).afterAll operations).compileBuilt (.ofCalls calls) = .ok query ∧
      (((new s own : Engine Float).afterAll operations).run query supplied).1 = .ok hits ∧
      hits.map Hit.position =
        (List.range records.length).filter (fun id => (records[id]?).any (findsRecord calls)) ∧
      hits.map Hit.record = records.filter (findsRecord calls) := by
  have hnew := coherent_new (α := Float) s own
  have hcoherent := hnew.afterAll operations
  have hunscored := hnew.unscored_afterAll hbinary (unscored_new s own) operations
  generalize (new s own : Engine Float).afterAll operations = e at *
  obtain ⟨u, hu, hsame⟩ := exists_compile_plain hcheck hplain
  obtain ⟨indexes, start, hstart, hanswer⟩ := hcoherent.run_searched hsearched
  obtain ⟨hmembers, hcapacity⟩ := hcoherent.startsFrom_whole hstart
  have hover : start.Over records := ⟨hcapacity, fun id hid => by
    rw [hmembers] at hid
    exact List.mem_range.mp hid⟩
  have heval : s.eval indexes records u start = select records false (findsRecord calls) start := by
    rw [Setup.eval, Setup.comparator, hbinary]
    simp only [hsame]
    exact selects_treeOf hplain start hover
  have hzero := ((hunscored.startsFrom hstart).of_scores_eq
    (s.leavesScores_eval hbinary indexes records u start))
  rw [heval] at hzero
  refine ⟨⟨u, (Builder.ofCalls calls).text⟩,
    found records (select records false (findsRecord calls) start), ?_, ?_, found_select hmembers⟩
  · simp only [compileBuilt, hcheck, Engine.compile, hcoherent.setup_eq, hstrict, hu]
  · have hcheck : s.checkIndexing = .ok () := by rw [Setup.checkIndexing, hfields]
    rw [hanswer, hcheck, ← rank_of_unscored hzero, ← heval]
    rfl

/-- Only the second record has `heavy` or `9` in its name and does not fly to Mars. The connectives
    before the first search and after the last one, and one that another follows, count for nothing. -/
theorem run_compileBuilt_neitherOrMars :
    let calls : List Call := [
      .connect .or,
      .search (.group [.search (.text "heavy") ⟨none, none⟩, .connect .or,
        .search (.number 9) ⟨none, none⟩, .connect .and]) ⟨some "name", some .exclude⟩,
      .connect .and,
      .connect .or,
      .search (.text "mars") ⟨some "orbit", none⟩]
    let records : List Record := [
      .object [("name", .string "Falcon Heavy"), ("orbit", .string "Mars")],
      .object [("name", .string "Falcon 9")],
      .object [("name", .string "Dragon")]]
    let e : Engine Float := (new ⟨.binary, [], false, .accumulate⟩ none).afterAll []
    (Builder.ofCalls calls).check = .ok () ∧ ∃ query hits,
      e.compileBuilt (.ofCalls calls) = .ok query ∧ (e.run query (some records)).1 = .ok hits ∧
      hits.map Hit.position = [0, 2] := by
  intro calls records e
  have hcheck : (Builder.ofCalls calls).check = .ok () := by decide +kernel
  have hplain : PlainCalls calls := by
    constructor
    · intro wanted options hmem
      simp [calls, searchesOf, Wanted.searches] at hmem
      rcases hmem with ⟨-, rfl⟩ | ⟨-, rfl⟩ | ⟨-, rfl⟩ | ⟨-, rfl⟩ <;> rfl
    · intro inner options hmem
      simp [calls, searchesOf, Wanted.searches] at hmem
      rw [hmem.1]
      exact ⟨_, _, List.mem_cons_self⟩
  have hsearched : e.searched (some records) = some records := rfl
  obtain ⟨query, hits, hquery, hhits, hpositions, -⟩ :=
    run_compileBuilt rfl rfl rfl hcheck hplain none [] hsearched
  refine ⟨hcheck, query, hits, hquery, hhits, hpositions.trans ?_⟩
  decide +kernel

end Engine

end RecordSearch.Search
