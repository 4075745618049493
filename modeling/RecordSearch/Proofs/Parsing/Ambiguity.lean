import RecordSearch.Proofs.Parsing.Promises
import RecordSearch.Proofs.Parsing.Completeness
import RecordSearch.Proofs.Grammar.Forms

/-! Ambiguous grammars have no table. A table that is built takes the leaves of every derivation tree
    back to that tree, and it gives one answer; so where two trees have the same leaves the building
    of the table must have come upon a conflict (`build_ambiguous`). -/

namespace RecordSearch.Query

/-- Some tokens have two derivation trees. -/
def Grammar.Ambiguous (g : Grammar) : Prop :=
  ∃ tokens t u, g.IsDerivation tokens t ∧ g.IsDerivation tokens u ∧ t ≠ u

namespace Table

variable {g : Grammar} {table : Table}

/-- A table that is built gives every derivation tree for its leaves, however many steps more than
    enough are allowed for. -/
theorem parse_leaves {σ : Type} (hbuild : build g = .ok table) {t : Tree}
    (hroot : t.symbol = .nonterminal g.start) (ht : t.Conforms g) (policy : Option (Policy σ)) (m : σ) :
    ∃ enough, ∀ fuel, enough ≤ fuel → table.parse policy fuel t.leaves m = some (.ok t, m) := by
  obtain ⟨enough, hrun⟩ : ∃ enough, table.parse policy enough t.leaves m = some (.ok t, m) :=
    Configuration.run_of_isDerivation (Grammar.automaton_of_build hbuild) ⟨hroot, ht, rfl⟩ m
  exact ⟨enough, fun fuel hfuel => Configuration.run_mono hrun hfuel⟩

theorem not_ambiguous_of_build (hbuild : build g = .ok table) : ¬ g.Ambiguous := by
  rintro ⟨tokens, t, u, ht, hu, hne⟩
  exact hne (Configuration.isDerivation_unique (Grammar.automaton_of_build hbuild) ht hu)

/-- If some tokens have two derivation trees then there is a conflict: a table that is built takes the
    leaves of each derivation tree, without recovery, to the tree itself. -/
theorem build_ambiguous (g : Grammar) :
    (g.Ambiguous → ∃ conflict, build g = .error conflict) ∧
    ∀ table, build g = .ok table → ∀ t : Tree, t.symbol = .nonterminal g.start → t.Conforms g →
      ∃ enough, ∀ fuel, enough ≤ fuel →
        table.parse (σ := Unit) none fuel t.leaves () = some (.ok t, ()) := by
  refine ⟨fun hambiguous => ?_, fun table hbuild t hroot ht => parse_leaves hbuild hroot ht none ()⟩
  cases hbuild : build g with
  | error conflict => exact ⟨conflict, rfl⟩
  | ok table => exact absurd hambiguous (not_ambiguous_of_build hbuild)

end Table

/-- Conjunctions of words that may be grouped either way. -/
def Grammar.conjunctions : Grammar where
  start := .list
  productions := [
    ⟨.list, [.nonterminal .search]⟩,
    ⟨.search, [.nonterminal .search, .terminal .and, .nonterminal .search]⟩,
    ⟨.search, [.terminal .searchTerm]⟩]

theorem Grammar.ambiguous_conjunctions : conjunctions.Ambiguous := by
  let word (text : String) (position : Nat) : Tree :=
    .node .search [.leaf (.ofText .searchTerm text position)]
  let both (l r : Tree) (position : Nat) : Tree :=
    .node .search [l, .leaf (.ofKind .and position), r]
  let leftmost : Tree := .node .list [both (both (word "a" 0) (word "b" 6) 2) (word "c" 12) 8]
  let rightmost : Tree := .node .list [both (word "a" 0) (both (word "b" 6) (word "c" 12) 8) 2]
  refine ⟨leftmost.leaves, leftmost, rightmost, ⟨rfl, ?_, rfl⟩, ⟨rfl, ?_, rfl⟩, ?_⟩
  · simp [leftmost, both, word, conjunctions, Tree.symbol, Token.ofKind, Token.ofText]
  · simp [rightmost, both, word, conjunctions, Tree.symbol, Token.ofKind, Token.ofText]
  · simp [leftmost, rightmost, both, word]

theorem Table.build_ambiguous_conjunctions :
    (∃ conflict, build Grammar.conjunctions = .error conflict) ∧
    ∃ enough, ∀ fuel, enough ≤ fuel →
      query.parse (σ := Unit) none fuel Tree.atMostFive.leaves () = some (.ok Tree.atMostFive, ()) :=
  ⟨(build_ambiguous Grammar.conjunctions).1 Grammar.ambiguous_conjunctions,
    (build_ambiguous Grammar.query).2 query query_spec.1 Tree.atMostFive rfl
      Tree.isDerivation_atMostFive.conforms⟩

end RecordSearch.Query
