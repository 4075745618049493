import RecordSearch.Proofs.Search.Built

/-! Terms that stand next to each other. Such a list and the conjunction of the same terms are nested
    differently, and the list ends in an empty one; still both are evaluated alike, for any number of
    terms (`evaluate_adjacent`). So a query of terms and groups does the same with `AND` between them
    and without (`evaluate_juxtaposed`). -/

namespace RecordSearch.Search

open RecordSearch.Query (Tree Token Grammar parseStrict tokenize)
open RecordSearch.Query.Nonterminal

/-! ### Both trees -/

/-- Terms as the items of a list. -/
def adjacent : List Tree → Tree
  | [] => .node list []
  | t :: ts => .node list [.node search [t], adjacent ts]

/-- Terms as the operands of conjunctions. -/
def conjoined (first : Tree) : List Tree → Tree
  | [] => .node search [first]
  | t :: ts => .node search [.node .and [first, mark .and, conjoined t ts]]

/-- Terms next to each other are evaluated as their conjunction, whatever the comparator is. -/
theorem evaluate_adjacent {δ : Type} (c : Comparator δ) (flags : Flags) {first : Tree}
    {others : List Tree} (hfirst : IsPhrase (.nonterminal searchType) first)
    (hothers : ∀ t ∈ others, IsPhrase (.nonterminal searchType) t) :
    evaluate c flags (adjacent (first :: others)) = evaluate c flags (conjoined first others) := by
  induction others generalizing first with
  | nil => exact evaluate_more rfl
  | cons t ts ih =>
    obtain ⟨ht, hts⟩ := List.forall_mem_cons.mp hothers
    calc evaluate c flags (adjacent (first :: t :: ts))
        = c.join (Connective.and.under flags.exclude) (evaluate c flags (.node search [first]))
            (evaluate c flags (adjacent (t :: ts))) := evaluate_more rfl
      _ = c.join (Connective.and.under flags.exclude) (evaluate c flags first)
            (evaluate c flags (conjoined t ts)) := by
          rw [evaluate_only (.inl rfl) hfirst.symbol, ih ht hts]
      _ = evaluate c flags (conjoined first (t :: ts)) := rfl

/-- A list of one item is evaluated as that item. -/
theorem evaluate_listOf {δ : Type} (c : Comparator δ) (flags : Flags) {t : Tree}
    (ht : t.isEmpty = false) : evaluate c flags (listOf (some t)) = evaluate c flags t := by
  rw [listOf, evaluate_more ht]
  rfl

theorem isPhrase_adjacent {ts : List Tree} (h : ∀ t ∈ ts, IsPhrase (.nonterminal searchType) t) :
    IsPhrase (.nonterminal list) (adjacent ts) := by
  induction ts with
  | nil => exact isPhrase_none
  | cons t ts ih =>
    obtain ⟨ht, hts⟩ := List.forall_mem_cons.mp h
    exact isPhrase_node (by decide) (.cons (isPhrase_node (by decide) (.cons ht .nil))
      (.cons (ih hts) .nil))

theorem isPhrase_conjoined {first : Tree} {others : List Tree}
    (hfirst : IsPhrase (.nonterminal searchType) first)
    (hothers : ∀ t ∈ others, IsPhrase (.nonterminal searchType) t) :
    IsPhrase (.nonterminal search) (conjoined first others) := by
  induction others generalizing first with
  | nil => exact isPhrase_node (by decide) (.cons hfirst .nil)
  | cons t ts ih =>
    obtain ⟨ht, hts⟩ := List.forall_mem_cons.mp hothers
    have hand : IsPhrase (.nonterminal .and) (.node .and [first, mark .and, conjoined t ts]) :=
      isPhrase_node (by decide)
        (.cons hfirst (.cons (isPhrase_mark .and) (.cons (ih ht hts) .nil)))
    exact isPhrase_node (by decide) (.cons hand .nil)

theorem leaves_adjacent (ts : List Tree) :
    (adjacent ts).leaves = (ts.map Tree.leaves).flatten := by
  induction ts with
  | nil => simp [adjacent]
  | cons t ts ih => simp [adjacent, ih]

theorem leaves_conjoined (first : Tree) (others : List Tree) : (conjoined first others).leaves =
    first.leaves ++ (others.map Tree.leaves).flatMap (.ofKind .and 0 :: ·) := by
  induction others generalizing first with
  | nil => simp [conjoined]
  | cons t ts ih => simp [conjoined, mark, ih]

/-! ### Both queries -/

/-- The tokens of a term, or of a term at a scope. -/
def IsTermOrGroup (tokens : List Token) : Prop :=
  Grammar.query.Derives [.nonterminal searchType] (tokens.map fun x => .terminal x.kind)

theorem isTermOrGroup_iff {tokens : List Token} : IsTermOrGroup tokens ↔
    ∃ t, IsPhrase (.nonterminal searchType) t ∧ t.leaves = tokens := by
  constructor
  · intro h
    obtain ⟨ts, hsymbols, hconforms, rfl⟩ := Grammar.exists_trees h
    obtain ⟨t, rfl, hsymbol⟩ := List.map_eq_singleton_iff.mp hsymbols
    exact ⟨t, ⟨hsymbol, hconforms t List.mem_cons_self⟩, by simp⟩
  · rintro ⟨t, ht, rfl⟩
    rw [IsTermOrGroup, ← ht.symbol]
    exact Grammar.derives_leaves ht.conforms

theorem exists_phrases : ∀ {sequences : List (List Token)},
    (∀ tokens ∈ sequences, IsTermOrGroup tokens) →
    ∃ ts : List Tree, (∀ t ∈ ts, IsPhrase (.nonterminal searchType) t) ∧
      ts.map Tree.leaves = sequences
  | [], _ => ⟨[], by simp⟩
  | tokens :: sequences, h => by
      obtain ⟨htokens, hsequences⟩ := List.forall_mem_cons.mp h
      obtain ⟨t, ht, rfl⟩ := isTermOrGroup_iff.mp htokens
      obtain ⟨ts, hts, rfl⟩ := exists_phrases hsequences
      exact ⟨t :: ts, List.forall_mem_cons.mpr ⟨ht, hts⟩, rfl⟩

/-- A query of terms and groups next to each other and the query with `AND` between them are both
    parsed, and have the same members and scores, under any flags. -/
theorem evaluate_juxtaposed {α : Type} [Arithmetic α] {first : List Token}
    {others : List (List Token)} (hfirst : IsTermOrGroup first)
    (hothers : ∀ tokens ∈ others, IsTermOrGroup tokens) {plain joined : List Token}
    (hplain : plain.map Token.unplaced = (first ++ others.flatten).map Token.unplaced)
    (hjoined : joined.map Token.unplaced =
      (first ++ others.flatMap (.ofKind .and 0 :: ·)).map Token.unplaced) :
    ∃ listed chained, parseStrict plain = .ok listed ∧ parseStrict joined = .ok chained ∧
      ∀ (records : List Record) (flags : Flags) (w : WorkingSet α),
        evaluate (.binary records) flags listed w = evaluate (.binary records) flags chained w ∧
        ∀ (measure : Measure) (indexFields : List String) (indexes : Indexes),
          evaluate (.fuzzy measure indexFields indexes records) flags listed w =
            evaluate (.fuzzy measure indexFields indexes records) flags chained w := by
  obtain ⟨t, ht, rfl⟩ := isTermOrGroup_iff.mp hfirst
  obtain ⟨ts, hts, rfl⟩ := exists_phrases hothers
  have hlist : IsPhrase (.nonterminal list) (adjacent (t :: ts)) :=
    isPhrase_adjacent (List.forall_mem_cons.mpr ⟨ht, hts⟩)
  have hconjoined := isPhrase_conjoined ht hts
  have hne := isEmpty_of_conforms hconjoined.conforms hconjoined.symbol (by decide)
  have hleaves : (listOf (some (conjoined t ts))).leaves = (conjoined t ts).leaves := by simp [listOf]
  have hplain' : plain.map Token.unplaced = (adjacent (t :: ts)).leaves.map Token.unplaced := by
    rw [hplain, leaves_adjacent, List.map_cons, List.flatten_cons]
  have hjoined' : joined.map Token.unplaced =
      (listOf (some (conjoined t ts))).leaves.map Token.unplaced := by
    rw [hjoined, hleaves, leaves_conjoined]
  obtain ⟨listed, hlisted, hsame⟩ := exists_parseStrict_of_leaves hlist hplain'
  obtain ⟨chained, hchained, hsame'⟩ :=
    exists_parseStrict_of_leaves (isPhrase_listOf hconjoined) hjoined'
  -- neither comparator looks at the places of terms
  have hequal : ∀ {δ : Type} (c : Comparator δ) (flags : Flags),
      (∀ flags token, c.search flags token.unplaced = c.search flags token) →
      evaluate c flags listed = evaluate c flags chained := fun c flags hplaces => by
    rw [hsame c flags hplaces, hsame' c flags hplaces, evaluate_adjacent c flags ht hts,
      evaluate_listOf c flags hne]
  refine ⟨listed, chained, hlisted, hchained, fun records flags w => ⟨?_, fun measure fields ixs => ?_⟩⟩
  · rw [hequal (.binary records) flags fun _ _ => rfl]
  · rw [hequal (.fuzzy measure fields ixs records) flags fun _ _ => rfl]

/-- `x !(n:>5)` and `x AND !(n:>5)` do the same, ranked or not, and under a negation as well. -/
theorem evaluate_juxtaposed_atMostFive :
    IsTermOrGroup (tokenize "x") ∧ IsTermOrGroup (tokenize "!(n:>5)") ∧
    ∃ listed chained, parseStrict (tokenize "x !(n:>5)") = .ok listed ∧
      parseStrict (tokenize "x AND !(n:>5)") = .ok chained ∧
      ∀ (records : List Record) (flags : Flags) (w : WorkingSet Float),
        evaluate (.binary records) flags listed w = evaluate (.binary records) flags chained w ∧
        ∀ (measure : Measure) (indexFields : List String) (indexes : Indexes),
          evaluate (.fuzzy measure indexFields indexes records) flags listed w =
            evaluate (.fuzzy measure indexFields indexes records) flags chained w := by
  have hword : IsTermOrGroup (tokenize "x") := by
    have hleaf : IsPhrase (.terminal .searchTerm) (.leaf (.ofText .searchTerm "x" 0)) :=
      ⟨rfl, .leaf _⟩
    have hterm : IsPhrase (.nonterminal term)
        (.node term [.node searchTerm [.leaf (.ofText .searchTerm "x" 0)]]) :=
      isPhrase_node (by decide) (.cons (isPhrase_node (by decide) (.cons hleaf .nil)) .nil)
    exact isTermOrGroup_iff.mpr ⟨_, isPhrase_atPath none hterm, rfl⟩
  have hgroup : IsTermOrGroup (tokenize "!(n:>5)") := by
    have hlist := Tree.conforms_node.mp Tree.isDerivation_atMostFive.conforms
    have hsearch := Tree.conforms_node.mp (hlist.2 _ List.mem_cons_self)
    exact isTermOrGroup_iff.mpr ⟨_, ⟨rfl, hsearch.2 _ List.mem_cons_self⟩, rfl⟩
  have hplain : tokenize "x !(n:>5)" = [.ofText .searchTerm "x" 0, .ofKind .exclude 2,
      .ofKind .lparen 3, .ofText .searchTerm "n" 4, .ofKind .groupTerminator 5, .ofKind .gt 6,
      ⟨.number, .number 5, 7⟩, .ofKind .rparen 8] := rfl
  have hjoined : tokenize "x AND !(n:>5)" = [.ofText .searchTerm "x" 0, .ofKind .and 2,
      .ofKind .exclude 6, .ofKind .lparen 7, .ofText .searchTerm "n" 8, .ofKind .groupTerminator 9,
      .ofKind .gt 10, ⟨.number, .number 5, 11⟩, .ofKind .rparen 12] := rfl
  have hfirst : tokenize "x" = [.ofText .searchTerm "x" 0] := rfl
  have hsecond : tokenize "!(n:>5)" = Tree.atMostFive.leaves := rfl
  have hplain' : (tokenize "x !(n:>5)").map Token.unplaced =
      (tokenize "x" ++ [tokenize "!(n:>5)"].flatten).map Token.unplaced := by
    rw [hplain, hfirst, hsecond]
    rfl
  have hjoined' : (tokenize "x AND !(n:>5)").map Token.unplaced =
      (tokenize "x" ++ [tokenize "!(n:>5)"].flatMap (.ofKind .and 0 :: ·)).map Token.unplaced := by
    rw [hjoined, hfirst, hsecond]
    rfl
  exact ⟨hword, hgroup, evaluate_juxtaposed hword (List.forall_mem_singleton.mpr hgroup) hplain'
    hjoined'⟩

end RecordSearch.Search
